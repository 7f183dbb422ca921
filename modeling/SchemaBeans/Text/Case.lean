import SchemaBeans.Text.CaseTable

/-!
# Full case mapping

Upper and lower case of one character as a list of characters, so that `ß`
becomes `SS`. A character in no table is its own mapping. The mappings do not
look at neighbouring characters.
-/

namespace SchemaBeans.Text

/-- The image of a code point under the first run that holds it. -/
def runImage? (runs : List (Nat × Nat × Nat × Nat)) (code : Nat) : Option Nat :=
  (runs.find? fun (first, last, step, _) =>
    first ≤ code && code ≤ last && (code - first) % step == 0).map
    fun (first, _, _, target) => target + (code - first)

/-- The mapping of a character by a table of several-character mappings and a table of runs. -/
def mapCase (special : List (Nat × List Nat)) (runs : List (Nat × Nat × Nat × Nat))
    (character : Char) : List Char :=
  match special.lookup character.toNat with
  | some image => image.map Char.ofNat
  | none =>
      match runImage? runs character.toNat with
      | some image => [Char.ofNat image]
      | none => [character]

/-- The upper case of one character. -/
def upperCase (character : Char) : List Char := mapCase upperSpecial upperRuns character

/-- The lower case of one character. -/
def lowerCase (character : Char) : List Char := mapCase lowerSpecial lowerRuns character

/-- The text with its first character in upper case. -/
def upperFirst : List Char → List Char
  | [] => []
  | first :: rest => upperCase first ++ rest

/-- The text with its first character in lower case. -/
def lowerFirst : List Char → List Char
  | [] => []
  | first :: rest => lowerCase first ++ rest

end SchemaBeans.Text
