import SchemaBeans.Path

/-!
# Registration with the build tool

A build script tells its build tool on standard output which directory to watch
and where the generated sources are.
-/

namespace SchemaBeans.Registration

/-- The variable that tells the program being built where the generated sources are. -/
def variableName : String := "MODELGEN_SOURCE_ROOT"

/-- The lines for the build tool: watch the schemas, and pass on the directory of the sources. -/
def directives (schemaRoot directory : Path) : List String :=
  ["cargo:rerun-if-changed=" ++ schemaRoot.text,
   "cargo:rustc-env=" ++ variableName ++ "=" ++ directory.text]

end SchemaBeans.Registration
