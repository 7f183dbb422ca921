import SchemaBeans.Discovery.Progress

/-!
# Discovery of schema documents

Everything below a schema root is walked depth first, with the names of a
directory in order, and links are followed. A directory is entered under its own
name where it can be reached without links, and else through the first link that
leads to it. A link back to a directory that the walk is in is reported and not
followed.
-/

namespace SchemaBeans

/-- Why a schema root cannot be walked. -/
inductive DiscoveryError where
  | notDirectory (root : Path)
  deriving DecidableEq, Repr

/-- The wording of a discovery error. -/
def DiscoveryError.message : DiscoveryError → String
  | notDirectory root => "schema root " ++ root.text ++ " is not a directory"

/-- The outcome of a discovery. -/
structure Discovery where
  /-- The schema documents in the order of their paths. -/
  files : List SchemaFile
  warnings : List Warning
  deriving DecidableEq, Repr

namespace Discovery

/-- The outcome of a discovery that finds nothing. -/
def empty : Discovery := ⟨[], []⟩

/-- The walk after all visits. -/
def walkAll (files : FileSystem) (query : Query) (visits : List Visit) (walk : Walk) : Walk :=
  match visits with
  | [] => walk
  | visit :: rest =>
      walkAll files query ((step files query visit walk).1 ++ rest) (step files query visit walk).2
termination_by measure files visits walk
decreasing_by exact measure_step_lt files query visit rest walk

/-- The directories at a location and below it whose paths from the root are not too long. They
keep their own names, so no link is entered that leads to one of them. -/
def ownDirectories (files : FileSystem) (root : Path) (location : Location) : List Location :=
  location :: (files.entries.filter fun entry =>
    location.isPrefixOf entry.1 && entry.2 = .directory &&
      (FileSystem.refusal? (root.descend (entry.1.drop location.length))).isNone).map Prod.fst

/-- The walk through the directory at a location. -/
def walkFrom (files : FileSystem) (query : Query) (location : Location) : Walk :=
  walkAll files query (children files query.root location [])
    ⟨ownDirectories files query.root location, [], [], []⟩

/-- Schema files in the order of their paths. -/
def sorted (files : List SchemaFile) : List SchemaFile :=
  files.mergeSort fun left right => left.compare right ≠ .gt

/-- The event of a document that was found. -/
def found (file : SchemaFile) : Event :=
  ⟨.intake, .info, "discovered " ++ file.path.text ++ " (" ++ file.fileName ++ ")"⟩

/-- Looks for schema documents, and tells what happened on the way. Where there is no root there are
no documents. -/
def ofQuery (files : FileSystem) (query : Query) :
    Except DiscoveryError Discovery × List Event :=
  match files.find query.root with
  | .error _ =>
      (.ok empty,
        [⟨.intake, .info,
          "schema root " ++ query.root.text ++ " does not exist; nothing to generate"⟩])
  | .ok (location, .directory) =>
      let walk := walkFrom files query location
      let documents := sorted walk.files.reverse
      (.ok ⟨documents, walk.warnings.reverse⟩, walk.log.reverse ++ documents.map found)
  | .ok _ => (.error (.notDirectory query.root), [])

end Discovery

end SchemaBeans
