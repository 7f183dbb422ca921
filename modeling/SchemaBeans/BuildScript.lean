import SchemaBeans.Generation
import SchemaBeans.Project

/-!
# Generation in a build script

A build script generates the sources of one project. Paths of its configuration
are taken relative to the project, nothing outside the project is consulted, and
a problem of any document fails the build.
-/

namespace SchemaBeans.BuildScript

/-- Why a build script fails. -/
inductive Failure where
  | config (error : ConfigError)
  | run (error : RunError)
  /-- Some documents have problems. -/
  | problems (report : Report)
  deriving DecidableEq, Repr

/-- The wording of the first problem of a report. -/
def firstProblem (report : Report) : String :=
  match report.problems with
  | [] => ""
  | problem :: _ => problem.message

/-- The wording of a failure. -/
def Failure.message : Failure → String
  | config error => error.message
  | run error => error.message
  | problems report =>
      report.summary ++ "; " ++ toString report.problems.length ++ " schema error(s), first: " ++
        firstProblem report

/-- The configuration of a project. -/
def configOf (files : FileSystem) (project : Path) : Except ConfigError Config :=
  let file := project.join ⟨projectFile⟩
  if files.isFile file then Config.ofFile files file else .ok Config.default

/-- The settings of a configuration with its paths below a project. -/
def settingsOf (cores : Nat) (buildTool : Option String) (project : Path) (config : Config) :
    Except SettingsError Settings :=
  SettingsDraft.build cores
    { SettingsDraft.ofConfig config buildTool with
      schemaRoot := some (project.join config.schemaRoot)
      outputDir := some (project.join (config.resolvedOutput buildTool)) }

/-- The project of a build script: what the build tool names, else the working directory. -/
def projectOf (manifestDirectory : Option String) : Path := ⟨manifestDirectory.getD "."⟩

/-- Generates the sources of a project. -/
def run (cores : Nat) (buildTool : Option String) (project : Path) (host : Host) :
    Except Failure Report × Host :=
  match configOf host.files project with
  | .error error => (.error (.config error), host)
  | .ok config =>
      match settingsOf cores buildTool project config with
      | .error error => (.error (.run (.settings error)), host)
      | .ok settings =>
          match Generation.run .free (.buildTool settings.schemaRoot) settings host with
          | (.error error, host) => (.error (.run error), host)
          | (.ok report, host) =>
              (if report.isSuccess then .ok report else .error (.problems report), host)

end SchemaBeans.BuildScript
