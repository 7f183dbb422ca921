import SchemaBeans.Generation
import SchemaBeans.ModelJson
import SchemaBeans.Project

/-!
# Commands

The commands generate sources, show the models of a schema root, and write the
default configuration. A command is clean if no document has a problem.
-/

namespace SchemaBeans.Command

/-- Why a command fails. -/
inductive Failure where
  | run (error : RunError)
  | config (error : ConfigError)
  | access (error : AccessError)
  /-- A file is there already. -/
  | present (path : Path)
  deriving DecidableEq, Repr

/-- The wording of a failure. -/
def Failure.message : Failure → String
  | run error => error.message
  | config error => error.message
  | access error => error.message
  | present path => path.text ++ " already exists (use --force to overwrite)"

/-- The outcome of a command that did its work. -/
structure Outcome where
  clean : Bool
  /-- What it says on standard error. -/
  remarks : String
  deriving DecidableEq, Repr

/-- The lines about problems. -/
def problemLines (problems : List Problem) : String :=
  String.join (problems.map fun problem =>
    "error[" ++ problem.kind ++ "]: " ++ problem.message ++ "\n")

/-- The lines about warnings. -/
def warningLines (warnings : List Warning) : String :=
  String.join (warnings.map fun warning => "warning: " ++ warning.message ++ "\n")

/-- Generates the sources of a configuration with what is overridden. -/
def generate (cores : Nat) (buildTool : Option String) (config : Config) (overrides : Overrides)
    (host : Host) : Except Failure Outcome × Host :=
  match Settings.resolve cores config buildTool overrides with
  | .error error => (.error (.run (.settings error)), host)
  | .ok settings =>
      match Generation.run .free .note settings host with
      | (.error error, host) => (.error (.run error), host)
      | (.ok report, host) =>
          (.ok ⟨report.isSuccess, warningLines report.warnings ++ problemLines report.problems⟩,
            host.print (report.summary ++ "\n"))

/-- The text that shows some models, for people or as JSON. -/
def modelsText (json : Bool) (models : List Model) : String :=
  if json then Model.renderAll models ++ "\n" else String.join (models.map Model.describe)

/-- Shows the models of a schema root, or of the configured one. -/
def dumpModels (cores : Nat) (config : Config) (schemaRoot : Option Path) (json : Bool)
    (host : Host) : Except Failure Outcome × Host :=
  let root := schemaRoot.getD config.schemaRoot
  match Loading.ofRoot [] (effectiveJobs cores config.jobs) root host with
  | (.error error, host) => (.error (.run error), host)
  | (.ok loading, host) =>
      (.ok ⟨loading.problems.isEmpty,
          warningLines loading.warnings ++ problemLines loading.problems⟩,
        host.print (modelsText json (loading.models.map Prod.snd)))

/-- The path to which the default configuration is written. -/
def initPath (path : Option Path) : Path := path.getD ⟨projectFile⟩

/-- Makes the directory for a file; a file without one needs none. -/
def makeParent (path : Path) (files : FileSystem) : Except AccessError Unit × FileSystem :=
  match path.parent? with
  | some parent => files.makeDirectories parent
  | none => (.ok (), files)

/-- Writes the default configuration. What is there already is overwritten only by force. -/
def initConfig (path : Option Path) (force : Bool) (files : FileSystem) :
    Except Failure Path × FileSystem :=
  let target := initPath path
  if files.pathExists target && !force then (.error (.present target), files)
  else
    match makeParent target files with
    | (.error error, files) => (.error (.access error), files)
    | (.ok (), files) =>
        match Config.default.save target files with
        | .ok files => (.ok target, files)
        | .error error => (.error (.config error), files)

end SchemaBeans.Command
