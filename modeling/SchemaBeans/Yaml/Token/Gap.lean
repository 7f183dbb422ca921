import SchemaBeans.Yaml.Token

/-!
# Gaps inside scalars

Blanks and breaks between the words of a scalar are folded: blanks on one line
stay, a single break becomes a space, and of several breaks all but the first
stay.
-/

namespace SchemaBeans.Yaml

/-- The blanks and breaks since the last word of a scalar. -/
structure Gap where
  /-- The blanks before any break, last first. -/
  blanks : List Char
  /-- The text of the first break; an escaped break has none. -/
  first : Option (List Char)
  /-- The text of the further breaks. -/
  more : List Char
  deriving Repr

namespace Gap

/-- No gap. -/
def empty : Gap := ⟨[], none, []⟩

/-- A break that contributes nothing. -/
def escapedBreak : Gap := ⟨[], some [], []⟩

/-- Whether the gap holds a break. -/
def broken (gap : Gap) : Bool := gap.first.isSome

/-- Whether anything stands in the gap. -/
def nonempty (gap : Gap) : Bool := gap.broken || !gap.blanks.isEmpty

/-- The gap with one more blank; blanks after a break are indentation. -/
def addBlank (gap : Gap) (character : Char) : Gap :=
  if gap.broken then gap else { gap with blanks := character :: gap.blanks }

/-- The gap with one more break. -/
def addBreak (gap : Gap) (text : List Char) : Gap :=
  match gap.first with
  | none => ⟨[], some text, []⟩
  | some _ => { gap with more := gap.more ++ text }

/-- What the gap contributes to the scalar. -/
def folded (gap : Gap) : List Char :=
  match gap.first with
  | none => gap.blanks.reverse
  | some ['\n'] => if gap.more.isEmpty then [' '] else gap.more
  | some text => text ++ gap.more

end Gap

end SchemaBeans.Yaml
