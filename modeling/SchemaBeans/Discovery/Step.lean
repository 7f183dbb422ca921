import SchemaBeans.FileSystem
import SchemaBeans.Log
import SchemaBeans.Model

/-!
# One step of a walk

A walk looks at the entries below a schema root one after the other. A file may
count as a schema document, a directory brings in its own entries, and a link
stands for what it leads to, unless that is a directory with a visit of its own.
-/

namespace SchemaBeans

/-- A link that was not followed, or a directory that was not entered. -/
structure Warning where
  path : Path
  reason : String
  deriving DecidableEq, Repr

/-- The wording of a warning. -/
def Warning.message (warning : Warning) : String := warning.path.text ++ ": " ++ warning.reason

namespace Discovery

/-- What is looked for: documents with one of some extensions below a root. -/
structure Query where
  root : Path
  extensions : List String
  deriving DecidableEq, Repr

/-- An entry that the walk has still to look at. -/
structure Visit where
  /-- The path under which the walk meets the entry. -/
  path : Path
  name : String
  /-- The directories that the walk is in, the innermost first. -/
  within : List Location
  deriving DecidableEq, Repr

namespace Visit

/-- The directory that holds the entry. -/
def directory (visit : Visit) : Location := visit.within.headD []

/-- The location of the entry. -/
def location (visit : Visit) : Location := visit.directory ++ [visit.name]

end Visit

/-- A walk as far as it came; all lists have the latest first. -/
structure Walk where
  /-- The directories that links need not lead to any more. -/
  visited : List Location
  files : List SchemaFile
  warnings : List Warning
  log : List Event
  deriving DecidableEq, Repr

namespace Walk

/-- The walk after a file, which counts if it has one of the extensions. -/
def withFile (walk : Walk) (query : Query) (path : Path) : Walk :=
  if hasExtension path query.extensions then
    { walk with files := .below query.root path :: walk.files }
  else walk

/-- The walk after a link that cannot be followed or a directory that cannot be entered. -/
def withWarning (walk : Walk) (warning : Warning) : Walk :=
  { walk with
    warnings := warning :: walk.warnings
    log := ⟨.intake, .warn, "skipping " ++ warning.message⟩ :: walk.log }

/-- The walk after a link to a directory that needs no second visit. -/
def withSkip (walk : Walk) (path : Path) : Walk :=
  { walk with log := .trace "LOCATE" ("skipping already visited " ++ path.text) :: walk.log }

/-- The walk in a directory. -/
def enter (walk : Walk) (location : Location) : Walk :=
  if walk.visited.contains location then walk
  else { walk with visited := location :: walk.visited }

variable (walk : Walk) (query : Query) (path : Path) (location : Location)

@[simp] theorem visited_withFile : (walk.withFile query path).visited = walk.visited := by
  unfold withFile
  split <;> rfl

@[simp] theorem warnings_withFile : (walk.withFile query path).warnings = walk.warnings := by
  unfold withFile
  split <;> rfl

/-- A file is added to the discovered ones if its extension is one of the query. -/
theorem files_withFile : (walk.withFile query path).files =
    (if hasExtension path query.extensions then [.below query.root path] else []) ++
      walk.files := by
  unfold withFile
  split <;> rfl

@[simp] theorem files_enter : (walk.enter location).files = walk.files := by
  unfold enter
  split <;> rfl

@[simp] theorem warnings_enter : (walk.enter location).warnings = walk.warnings := by
  unfold enter
  split <;> rfl

end Walk

/-- The entries of a directory, each to be visited. -/
def children (files : FileSystem) (path : Path) (location : Location) (within : List Location) :
    List Visit :=
  (files.names location).map fun name => ⟨path.join ⟨name⟩, name, location :: within⟩

/-- Looks at one entry: the entries that come with it, and the walk after it. Links are followed
from the working directory along the whole path of the entry, and a directory whose path is too
long is not entered. -/
def step (files : FileSystem) (query : Query) (visit : Visit) (walk : Walk) : List Visit × Walk :=
  match files.entryAt? visit.location with
  | some .directory =>
      match FileSystem.refusal? visit.path with
      | some error => ([], walk.withWarning ⟨visit.path, error.message⟩)
      | none => (children files visit.path visit.location visit.within, walk.enter visit.location)
  | some (.file _) => ([], walk.withFile query visit.path)
  | some (.link _) =>
      match files.find visit.path with
      | .error error => ([], walk.withWarning ⟨visit.path, error.message⟩)
      | .ok (location, .directory) =>
          if visit.within.contains location then
            ([], walk.withWarning ⟨visit.path, "symbolic link cycle"⟩)
          else if walk.visited.contains location then ([], walk.withSkip visit.path)
          else (children files visit.path location visit.within, walk.enter location)
      | .ok (_, .file _) => ([], walk.withFile query visit.path)
      | .ok (_, .link _) => ([], walk)
  | none => ([], walk)

end Discovery

end SchemaBeans
