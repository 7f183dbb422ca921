/-!
# Code point ranges

Character classes are kept as closed ranges of code points. A class contains a
character exactly when one of its ranges does; no order of the ranges is used.
-/

namespace SchemaBeans.Text

/-- A character class: closed ranges of code points. -/
abbrev Ranges := List (Nat × Nat)

/-- Whether one of the ranges holds the code point of `character`. -/
def Ranges.contains (ranges : Ranges) (character : Char) : Bool :=
  ranges.any fun range => range.1 ≤ character.toNat && character.toNat ≤ range.2

/-- Ranges contain a character when one of them does. -/
theorem Ranges.contains_iff {ranges : Ranges} {character : Char} :
    ranges.contains character = true ↔
      ∃ range ∈ ranges, range.1 ≤ character.toNat ∧ character.toNat ≤ range.2 := by
  simp [Ranges.contains]

end SchemaBeans.Text
