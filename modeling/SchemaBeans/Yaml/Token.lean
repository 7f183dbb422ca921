import SchemaBeans.Yaml.Character
import SchemaBeans.Yaml.Tag

/-!
# Tokens of YAML

A text is cut into tokens with the marks that indentation implies made explicit:
block collections have a start and an end, and every key and value is announced.
-/

namespace SchemaBeans.Yaml

/-- A token. -/
inductive Token where
  | version (major minor : Nat)
  | tagHandle (handle : String) (expansion : TagText)
  | documentStart
  | documentEnd
  | blockSequence
  | blockMapping
  | blockEnd
  | flowSequence
  | flowSequenceEnd
  | flowMapping
  | flowMappingEnd
  | blockEntry
  | flowEntry
  | key
  | value
  | reference (name : String)
  | anchor (name : String)
  | tag (handle : String) (suffix : TagText)
  | scalar (text : String) (plain : Bool)
  deriving DecidableEq, Repr

/-- A place in a text: the number of bytes before it, and its line and column. -/
structure Mark where
  index : Nat
  line : Nat
  column : Nat
  deriving DecidableEq, Repr

namespace Mark

/-- The start of a text. -/
def start : Mark := ⟨0, 0, 0⟩

/-- The place after one character of the same line. -/
def past (mark : Mark) (character : Char) : Mark :=
  ⟨mark.index + character.utf8Size, mark.line, mark.column + 1⟩

/-- The place after a break. -/
def newLine (mark : Mark) (character : Char) : Mark :=
  ⟨mark.index + character.utf8Size, mark.line + 1, 0⟩

/-- The place after a carriage return with its line feed, which are one break. -/
def newLinePair (mark : Mark) : Mark := (mark.past '\r').newLine '\n'

end Mark

/-- What is left of a text, and where it starts. -/
structure Cursor where
  rest : List Char
  mark : Mark
  deriving Repr

namespace Cursor

/-- The cursor some characters further on the same line. -/
def advance (cursor : Cursor) (count : Nat) : Cursor :=
  ⟨cursor.rest.drop count, (cursor.rest.take count).foldl Mark.past cursor.mark⟩

/-- The characters at the cursor that satisfy a test. -/
def takeWhile (cursor : Cursor) (test : Char → Bool) : List Char := cursor.rest.takeWhile test

/-- The cursor after the characters that satisfy a test, none of them a break. -/
def skipWhile (cursor : Cursor) (test : Char → Bool) : Cursor :=
  cursor.advance (cursor.takeWhile test).length

/-- The cursor after blanks. -/
def skipWhite (cursor : Cursor) : Cursor := cursor.skipWhile isWhite

/-- The cursor after one break, if there is one. -/
def skipBreak (cursor : Cursor) : Cursor :=
  match cursor.rest with
  | '\r' :: '\n' :: rest => ⟨rest, cursor.mark.newLinePair⟩
  | character :: rest =>
      if isBreak character then ⟨rest, cursor.mark.newLine character⟩ else cursor
  | [] => cursor

/-- The cursor after the blanks, comment and break that may end a line; nothing else may stand
there. -/
def skipLineEnd? (cursor : Cursor) : Option Cursor :=
  let blank := cursor.skipWhite
  let bare :=
    match blank.rest with
    | '#' :: _ => blank.skipWhile fun character => !isBreak character
    | _ => blank
  match bare.rest with
  | [] => some bare
  | character :: _ => if isBreak character then some bare.skipBreak else none

end Cursor

end SchemaBeans.Yaml
