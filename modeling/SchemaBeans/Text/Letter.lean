import SchemaBeans.Text.LetterTable

/-!
# Letters and alphanumeric characters

These classes follow Unicode; core's classes of the same names know ASCII only.
-/

namespace SchemaBeans.Text

/-- Whether `character` has the Unicode property Alphabetic. -/
def isLetter (character : Char) : Bool :=
  if character.toNat < 0x80 then character.isAlpha else alphabeticRanges.contains character

/-- Whether `character` is a letter or belongs to a numeric general category. -/
def isLetterOrNumeral (character : Char) : Bool :=
  if character.toNat < 0x80 then character.isAlphanum
  else alphabeticRanges.contains character || numeralRanges.contains character

end SchemaBeans.Text
