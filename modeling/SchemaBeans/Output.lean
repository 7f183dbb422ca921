import SchemaBeans.FileSystem.Change
import SchemaBeans.Host
import SchemaBeans.Source

/-!
# Writing sources

A source is written below the output root as a finished file: it replaces what
stood at its path in one step, so a reader sees the old file or the new one.
-/

namespace SchemaBeans

/-- A path that could not be written. -/
structure WriteError where
  path : Path
  error : AccessError
  deriving DecidableEq, Repr

/-- The wording of a write error. -/
def WriteError.message (error : WriteError) : String :=
  "failed to write " ++ error.path.text ++ ": " ++ error.error.message

namespace SourceUnit

/-- The path of a unit below an output root. -/
def target (unit : SourceUnit) (root : Path) : Path := root.join unit.relative

/-- The directory of a unit below an output root. -/
def targetDirectory (unit : SourceUnit) (root : Path) : Path :=
  ((unit.target root).parent?).getD root

/-- Writes the cleaned source of a unit below an output root, after making its directory. -/
def write (unit : SourceUnit) (root : Path) (files : FileSystem) :
    Except WriteError Path × FileSystem :=
  match files.makeDirectories (unit.targetDirectory root) with
  | (.error error, files) => (.error ⟨unit.targetDirectory root, error⟩, files)
  | (.ok (), files) =>
      match files.replace (unit.target root) (clean unit.source) with
      | .error error => (.error ⟨unit.target root, error⟩, files)
      | .ok files => (.ok (unit.target root), files)

end SourceUnit

end SchemaBeans
