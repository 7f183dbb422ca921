import SchemaBeans.Identifier
import SchemaBeans.Path

/-!
# Packages

Schema directories become namespace segments, a base package and a namespace
become a package, and a package becomes the directory of its sources.
-/

namespace SchemaBeans.Package

/-- A character of a segment: what cannot stand in an identifier becomes `_`. -/
def segmentChar (character : Char) : Char :=
  if Identifier.isPart character then character else '_'

/-- The segment of a directory name: lower case, with `_` for every character that an identifier
cannot hold, `_` in front of what is no identifier, and `_` behind a reserved word. -/
def segment (directory : String) : String :=
  let mapped := (directory.toList.flatMap Text.lowerCase).map segmentChar
  let shaped := String.ofList (if Identifier.hasShape mapped then mapped else '_' :: mapped)
  if Identifier.isReserved shaped then shaped ++ "_" else shaped

/-- The namespace of a schema in the given directories below the schema root. -/
def namespaceOf (directories : List String) : List String := directories.map segment

/-- The package of a namespace below a base package; an empty base is left out. -/
def qualify (base : String) (space : List String) : String :=
  Text.joinStrings "." (if base.isEmpty then space else base :: space)

/-- The directory, relative to the output root, of the sources of a package. -/
def directory (package : String) : Path :=
  Path.descend ⟨""⟩ ((Text.splitString '.' package).filter (!·.isEmpty))

/-- The path, relative to the output root, of the source of a type. -/
def unitPath (package typeName extension : String) : Path :=
  (directory package).join ⟨typeName ++ "." ++ extension⟩

end SchemaBeans.Package
