import SchemaBeans.Yaml.Token.Gap

/-!
# Plain scalars

A plain scalar has no quotes. It goes on over lines that are indented deeply
enough, and ends before a comment, a key's colon or an indicator of a flow
collection.
-/

namespace SchemaBeans.Yaml

/-- A plain scalar that was read. -/
structure Plain where
  text : String
  /-- Whether breaks follow the last word; they are read with it. -/
  broken : Bool
  cursor : Cursor

/-- Characters that a colon may not stand before inside a flow collection. -/
def isColonHazard (character : Char) : Bool :=
  character = ',' || character = '?' || character = '[' || character = ']' ||
    character = '\x7b' || character = '\x7d'

/-- Characters that end a plain scalar inside a flow collection. -/
def isFlowIndicator (character : Char) : Bool :=
  character = ',' || character = '[' || character = ']' || character = '\x7b' ||
    character = '\x7d'

/-- Whether a word of a plain scalar cannot start at this place after a gap. -/
def endsAfterGap (flow : Bool) (indent : Nat) (mark : Mark) (text : List Char) : Bool :=
  (!flow && mark.column < indent) || (mark.column = 0 && isDocumentMark text) ||
    text.head? = some '#'

/-- Whether a word of a plain scalar ends at this place. -/
def endsWord (flow : Bool) (text : List Char) : Bool :=
  match text with
  | [] => true
  | character :: rest =>
      (character = ':' && atGap rest) || (flow && isFlowIndicator character)

/-- Whether a colon stands where it may not. -/
def hasColonHazard (flow : Bool) (text : List Char) : Bool :=
  match text with
  | ':' :: next :: _ => flow && isColonHazard next
  | _ => false

/-- Reads a plain scalar whose further lines are indented by at least `indent`. The characters
read so far come in reverse, and the gap after them is pending. -/
def readPlain (flow : Bool) (indent : Nat) :
    List Char → Mark → Gap → List Char → Option Plain
  | [], mark, gap, text => some ⟨String.ofList text.reverse, gap.broken, ⟨[], mark⟩⟩
  | '\r' :: '\n' :: rest, mark, gap, text =>
      readPlain flow indent rest mark.newLinePair (gap.addBreak ['\n']) text
  | character :: rest, mark, gap, text =>
      if isWhite character then
        if gap.broken && mark.column < indent && character = '\t' then none
        else readPlain flow indent rest (mark.past character) (gap.addBlank character) text
      else if isBreak character then
        readPlain flow indent rest (mark.newLine character)
          (gap.addBreak (breakText character)) text
      else if gap.nonempty && endsAfterGap flow indent mark (character :: rest) then
        some ⟨String.ofList text.reverse, gap.broken, ⟨character :: rest, mark⟩⟩
      else if hasColonHazard flow (character :: rest) then none
      else if endsWord flow (character :: rest) then
        some ⟨String.ofList text.reverse, gap.broken, ⟨character :: rest, mark⟩⟩
      else
        readPlain flow indent rest (mark.past character) .empty
          (character :: (gap.folded.reverse ++ text))

end SchemaBeans.Yaml
