import SchemaBeans.Path
import SchemaBeans.Text.Blank

/-!
# Generated sources

A generated source is cleaned before it is written or shown: no line keeps
blanks at its end, and no blank lines stand at the end of the text.
-/

namespace SchemaBeans

/-- One generated source document. -/
structure SourceUnit where
  package : String
  typeName : String
  source : String
  /-- Where the source belongs below the output root. -/
  relative : Path
  deriving DecidableEq, Repr

namespace SourceUnit

/-- The trimmed lines of a text up to its last line that is not blank. -/
def cleanLines (text : List Char) : List (List Char) :=
  (((Text.lines text).map Text.trimEnd).reverse.dropWhile List.isEmpty).reverse

/-- The text with each line trimmed at its end and without trailing blank lines. A text that is
not empty ends with a line feed. -/
def clean (text : String) : String :=
  String.ofList ((cleanLines text.toList).flatMap fun line => line ++ ['\n'])

/-- The unit as it is shown on the console, below a line with its path. -/
def echo (unit : SourceUnit) : String :=
  "// ---- " ++ unit.relative.text ++ " ----\n" ++ clean unit.source

end SourceUnit

end SchemaBeans
