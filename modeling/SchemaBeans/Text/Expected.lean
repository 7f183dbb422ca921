import SchemaBeans.Text.Pieces

/-!
# Expected names

Messages about an unknown name list the names that are known at its place.
-/

namespace SchemaBeans.Text

/-- A list of names as it is shown where one of them was expected. -/
def expectedNames : List String → String
  | [] => "there are no fields"
  | [name] => "expected `" ++ name ++ "`"
  | [first, second] => "expected `" ++ first ++ "` or `" ++ second ++ "`"
  | names => "expected one of " ++ joinStrings ", " (names.map fun name => "`" ++ name ++ "`")

end SchemaBeans.Text
