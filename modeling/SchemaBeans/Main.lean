import SchemaBeans.CommandLine
import SchemaBeans.Machine

/-!
# The program

The program reads what its command may look at, runs the command, and writes
back what it changed.
-/

namespace SchemaBeans.Machine

/-- The directory for the configurations of a user. -/
def userDirectory? : IO (Option Path) := do
  match (← IO.getEnv "XDG_CONFIG_HOME").map Path.mk, ← IO.getEnv "HOME" with
  | some directory, home =>
      if directory.isAbsolute then return some directory
      else return home.map fun home => Path.join ⟨home⟩ ⟨".config"⟩
  | none, home => return home.map fun home => Path.join ⟨home⟩ ⟨".config"⟩

/-- What the environment tells the program. -/
def environment : IO CommandLine.Environment := do
  return ⟨1, ← IO.getEnv "OUT_DIR", ← userDirectory?, ← IO.getEnv "RUST_LOG"⟩

/-- The files from which a configuration may be loaded. -/
def configPaths (environment : CommandLine.Environment) (request : CommandLine.Request)
    (files : FileSystem) : List Path :=
  let projects := files.workPath.ancestors.flatMap fun directory =>
    [directory.join ⟨projectFile⟩, directory.join ⟨Project.manifestFile⟩]
  projects ++ (environment.userDirectory.map Config.userFile).toList ++
    match request with
    | .invocation invocation => invocation.config.toList
    | _ => []

/-- Reads the files that a request may look at. -/
def filesFor (environment : CommandLine.Environment) (request : CommandLine.Request) :
    IO FileSystem := do
  let mut snapshot ← start
  for path in configPaths environment request snapshot.files do
    snapshot ← readPath snapshot path
  for path in request.trees environment snapshot.files do
    snapshot ← readTree snapshot path
  return snapshot.files

end SchemaBeans.Machine

/-- Runs the program with the arguments of its command line. -/
def main (arguments : List String) : IO UInt32 := do
  let environment ← SchemaBeans.Machine.environment
  let request := SchemaBeans.CommandLine.Request.ofArguments arguments
  let files ← SchemaBeans.Machine.filesFor environment request
  let (exit, after) := SchemaBeans.CommandLine.run environment arguments files
  IO.print exit.output
  IO.eprint exit.errors
  try
    SchemaBeans.Machine.restore files after
    return exit.code.toUInt32
  catch error =>
    IO.eprintln ("error: " ++ toString error)
    return 1
