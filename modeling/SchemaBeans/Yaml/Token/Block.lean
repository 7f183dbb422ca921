import SchemaBeans.Yaml.Token

/-!
# Block scalars

A block scalar is announced by `|` or `>` and consists of the following lines
that are indented as deeply as its first one, or as its header says. `|` keeps
the line breaks and `>` folds them.
-/

namespace SchemaBeans.Yaml

/-- What becomes of the breaks at the end of a block scalar. -/
inductive Chomping where
  | strip
  | clip
  | keep
  deriving DecidableEq, Repr

/-- The header of a block scalar. -/
structure BlockHeader where
  chomping : Chomping
  /-- The indentation relative to the enclosing block, if the header tells it. -/
  indentation : Option Nat
  deriving Repr

/-- The chomping that a character asks for. -/
def chomping? : Char → Option Chomping
  | '+' => some .keep
  | '-' => some .strip
  | _ => none

/-- The indentation that a digit asks for, from one to nine. -/
def indentation? (character : Char) : Option Nat :=
  if character.isDigit && character ≠ '0' then some (character.toNat - 48) else none

/-- The header at the start of a text, and its length. A zero where an indentation may stand is
refused later, since it ends no line. -/
def blockHeader : List Char → BlockHeader × Nat
  | first :: second :: _ =>
      match chomping? first, indentation? first, chomping? second, indentation? second with
      | some chomping, _, _, some indentation => (⟨chomping, some indentation⟩, 2)
      | some chomping, _, _, none => (⟨chomping, none⟩, 1)
      | none, some indentation, some chomping, _ => (⟨chomping, some indentation⟩, 2)
      | none, some indentation, none, _ => (⟨.clip, some indentation⟩, 1)
      | none, none, _, _ => (⟨.clip, none⟩, 0)
  | [only] =>
      match chomping? only, indentation? only with
      | some chomping, _ => (⟨chomping, none⟩, 1)
      | none, some indentation => (⟨.clip, some indentation⟩, 1)
      | none, none => (⟨.clip, none⟩, 0)
  | [] => (⟨.clip, none⟩, 0)

/-- A block scalar as far as it was read. -/
structure BlockState where
  /-- The characters read, last first. -/
  text : List Char
  /-- The break that ended the last line. -/
  lastBreak : List Char
  /-- The breaks of the empty lines after it. -/
  emptyLines : List Char
  /-- Whether the last line started with a blank. -/
  leadingBlank : Bool
  /-- The indentation of the lines, once it is known. -/
  indentation : Option Nat
  /-- The widest indentation of an empty line so far. -/
  widest : Nat

namespace BlockState

/-- Nothing read. -/
def start (indentation : Option Nat) : BlockState := ⟨[], [], [], false, indentation, 0⟩

/-- The state at the start of a line: its break and the empty lines before it join the text. A
folded scalar turns a single break into a space, unless one of the two lines around it starts with
a blank. -/
def startLine (state : BlockState) (literal : Bool) (first : Char) : BlockState :=
  let blank := isWhite first
  let joint :=
    if !literal && state.lastBreak = ['\n'] && !state.leadingBlank && !blank then
      if state.emptyLines.isEmpty then [' '] else []
    else state.lastBreak
  { state with
    text := first :: ((joint ++ state.emptyLines).reverse ++ state.text)
    lastBreak := []
    emptyLines := []
    leadingBlank := blank }

/-- The text of a scalar that ends here. -/
def finish (state : BlockState) (chomping : Chomping) : String :=
  let tail :=
    match chomping with
    | .strip => []
    | .clip => state.lastBreak
    | .keep => state.lastBreak ++ state.emptyLines
  String.ofList (state.text.reverse ++ tail)

/-- Whether a blank in a given column still belongs to the indentation. -/
def insideIndentation (state : BlockState) (column : Nat) : Bool :=
  match state.indentation with
  | none => true
  | some indentation => column < indentation

/-- The indentation of the scalar: the known one, or that of its first lines, which is at least
`least`. -/
def settled (state : BlockState) (least : Nat) (column : Nat) : Nat :=
  state.indentation.getD (max (max state.widest column) least)

end BlockState

/-- Reads the lines of a block scalar whose lines are indented by at least `least`; `margin` tells
whether only indentation stands before the place on its line. -/
def readBlock (literal : Bool) (chomping : Chomping) (least : Nat) :
    List Char → Mark → Bool → BlockState → Option (String × Cursor)
  | [], mark, _, state => some (state.finish chomping, ⟨[], mark⟩)
  | '\r' :: '\n' :: rest, mark, margin, state =>
      readBlock literal chomping least rest mark.newLinePair true
        (if margin then
          { state with
            emptyLines := state.emptyLines ++ ['\n'], widest := max state.widest mark.column }
        else { state with lastBreak := ['\n'] })
  | character :: rest, mark, true, state =>
      if character = ' ' && state.insideIndentation mark.column then
        readBlock literal chomping least rest (mark.past character) true state
      else if character = '\t' && state.insideIndentation mark.column then none
      else if isBreak character then
        readBlock literal chomping least rest (mark.newLine character) true
          { state with
            emptyLines := state.emptyLines ++ breakText character
            widest := max state.widest mark.column }
      else
        let indentation := state.settled least mark.column
        if mark.column = indentation then
          readBlock literal chomping least rest (mark.past character) false
            ({ state with indentation := some indentation }.startLine literal character)
        else some (state.finish chomping, ⟨character :: rest, mark⟩)
  | character :: rest, mark, false, state =>
      if isBreak character then
        readBlock literal chomping least rest (mark.newLine character) true
          { state with lastBreak := breakText character }
      else
        readBlock literal chomping least rest (mark.past character) false
          { state with text := character :: state.text }

/-- Reads a block scalar after its indicator, inside a block whose indentation is `parent`, if
there is one. -/
def readBlockScalar (literal : Bool) (parent : Option Nat) (cursor : Cursor) :
    Option (String × Cursor) :=
  let (header, width) := blockHeader cursor.rest
  match (cursor.advance width).skipLineEnd? with
  | none => none
  | some body =>
      let indentation := header.indentation.map fun count => parent.getD 0 + count
      let least := match parent with
        | some column => column + 1
        | none => 1
      readBlock literal header.chomping least body.rest body.mark true
        (.start indentation)

end SchemaBeans.Yaml
