import SchemaBeans.Host
import SchemaBeans.Report
import SchemaBeans.RunError

/-!
# Loading schema documents

Every document that is found is read, parsed and validated, on as many workers
as the run has. A document that fails is a problem; the others are loaded.
-/

namespace SchemaBeans

/-- The model of a schema document, if it is fit for generation. -/
def SchemaFile.load (file : SchemaFile) (files : FileSystem) : Except LoadError Model :=
  match files.read file.path with
  | .error error => .error (.unreadable error)
  | .ok text =>
      match SchemaDocument.parse file text with
      | .error error => .error (.document error)
      | .ok model => if model.issues.isEmpty then .ok model else .error (.invalid model.issues)

/-- The documents of a schema root with what became of them. -/
structure Loading where
  /-- The number of documents that were found. -/
  discovered : Nat
  /-- The loaded models with their documents, in the order of the documents. -/
  models : List (SchemaFile × Model)
  /-- The problems of the other documents, in the order of the documents. -/
  problems : List Problem
  warnings : List Warning
  deriving DecidableEq, Repr

namespace Loading

/-- The event of a document that was loaded. -/
def loadedEvent (file : SchemaFile) (model : Model) : Event :=
  ⟨.intake, .debug, "loaded " ++ file.relative.text ++ "\n" ++ model.describe⟩

/-- Loading one document on a host. -/
def task : Pool.Task SchemaFile Host (Except LoadError Model) where
  cancelled := Host.cancelled
  cancel := Host.cancel
  work file host :=
    match file.load host.files with
    | .ok model => (some (.ok model), host.tell (loadedEvent file model))
    | .error error => (some (.error error), host)

/-- The models among the results of some documents. -/
def modelsOf (results : List (SchemaFile × Except LoadError Model)) :
    List (SchemaFile × Model) :=
  results.filterMap fun (file, result) =>
    match result with
    | .ok model => some (file, model)
    | .error _ => none

/-- The problems among the results of some documents. -/
def problemsOf (results : List (SchemaFile × Except LoadError Model)) : List Problem :=
  results.filterMap fun (file, result) =>
    match result with
    | .ok _ => none
    | .error error => some ⟨file.path, .load error⟩

/-- The event of a problem. -/
def problemEvent (problem : Problem) : Event := ⟨.generation, .error, problem.message⟩

/-- Finds and loads the schema documents below a root. -/
def ofRoot (schedule : List Pool.Move) (jobs : Nat) (root : Path) (host : Host) :
    Except RunError Loading × Host :=
  match Discovery.ofQuery host.files ⟨root, schemaExtensions⟩ with
  | (.error error, events) => (.error (.discovery error), host.tellAll events)
  | (.ok discovery, events) =>
      match Pool.run schedule jobs task discovery.files (host.tellAll events) with
      | (.error halt, host) => (.error (.halted halt), host)
      | (.ok results, host) =>
          let outcomes := discovery.files.zip results
          let problems := problemsOf outcomes
          (.ok ⟨discovery.files.length, modelsOf outcomes, problems, discovery.warnings⟩,
            host.tellAll (problems.map problemEvent))

end Loading

end SchemaBeans
