import SchemaBeans.Yaml.Token.Block
import SchemaBeans.Yaml.Token.Plain
import SchemaBeans.Yaml.Token.Property
import SchemaBeans.Yaml.Token.Quoted

/-!
# Cutting a text into tokens

The lexer keeps the columns of the open block collections and, for each level of
flow collections, the place of the last node that may turn out to be a key. When
a colon shows that it is one, the tokens that announce a key, and perhaps a
mapping, are put before it after the fact.
-/

namespace SchemaBeans.Yaml

/-- A node that may turn out to be a key. -/
structure PossibleKey where
  /-- The number of tokens before it. -/
  position : Nat
  mark : Mark
  /-- Whether nothing but a key may stand there. -/
  required : Bool
  deriving Repr

/-- Whether a possible key can no longer be one: a key stands on one line and is followed by its
colon within 1024 bytes. -/
def PossibleKey.stale (key : PossibleKey) (mark : Mark) : Bool :=
  key.mark.line < mark.line || key.mark.index + 1024 < mark.index

/-- The state of the lexer. -/
structure Lexer where
  cursor : Cursor
  /-- The tokens so far, last first. -/
  tokens : List Token
  /-- The number of tokens so far. -/
  count : Nat
  /-- The columns of the open block collections, innermost first. -/
  columns : List Nat
  /-- The possible key of each open flow collection, innermost first, and of the block around
  them. -/
  keys : List (Option PossibleKey)
  /-- Whether a key may start here. -/
  keyAllowed : Bool

namespace Lexer

/-- The lexer at the start of a text. -/
def start (text : List Char) : Lexer := ⟨⟨text, .start⟩, [], 0, [], [none], true⟩

/-- Whether the place is inside a flow collection. -/
def flow (lexer : Lexer) : Bool := 1 < lexer.keys.length

/-- The current column. -/
def column (lexer : Lexer) : Nat := lexer.cursor.mark.column

/-- Adds a token. -/
def emit (lexer : Lexer) (token : Token) : Lexer :=
  { lexer with tokens := token :: lexer.tokens, count := lexer.count + 1 }

/-- Puts a token before the one at a position. -/
def emitAt (lexer : Lexer) (position : Nat) (token : Token) : Lexer :=
  let (later, earlier) := lexer.tokens.splitAt (lexer.count - position)
  { lexer with tokens := later ++ token :: earlier, count := lexer.count + 1 }

/-- Moves the cursor over some characters of the line. -/
def skip (lexer : Lexer) (count : Nat) : Lexer :=
  { lexer with cursor := lexer.cursor.advance count }

/-- Closes the block collections that are indented deeper than a column. -/
def closeBlocks (lexer : Lexer) (column : Nat) : Lexer :=
  if lexer.flow then lexer
  else
    let closed := lexer.columns.takeWhile fun open_ => column < open_
    { lexer with
      tokens := closed.map (fun _ => Token.blockEnd) ++ lexer.tokens
      count := lexer.count + closed.length
      columns := lexer.columns.drop closed.length }

/-- Closes all block collections. -/
def closeAllBlocks (lexer : Lexer) : Lexer :=
  if lexer.flow then lexer
  else
    { lexer with
      tokens := lexer.columns.map (fun _ => Token.blockEnd) ++ lexer.tokens
      count := lexer.count + lexer.columns.length
      columns := [] }

/-- Opens a block collection at a column if it is indented deeper than the open ones; its token
goes before the one at the position. -/
def openBlock (lexer : Lexer) (column position : Nat) (token : Token) : Lexer :=
  let deeper := match lexer.columns with
    | [] => true
    | current :: _ => current < column
  if !lexer.flow && deeper then
    { lexer.emitAt position token with columns := column :: lexer.columns }
  else lexer

/-- Forgets the possible key of the current level; a required one must not be forgotten. -/
def forgetKey (lexer : Lexer) : Option Lexer :=
  match lexer.keys with
  | some key :: keys => if key.required then none else some { lexer with keys := none :: keys }
  | _ => some lexer

/-- Notes that the node that starts here may be a key. -/
def noteKey (lexer : Lexer) : Option Lexer :=
  if lexer.keyAllowed then
    lexer.forgetKey.map fun lexer =>
      let required := !lexer.flow && lexer.columns.head? = some lexer.column
      { lexer with
        keys := some ⟨lexer.count, lexer.cursor.mark, required⟩ :: lexer.keys.drop 1 }
  else some lexer

/-- Forgets the possible keys that can no longer be one. -/
def forgetStaleKeys (lexer : Lexer) : Option Lexer :=
  let mark := lexer.cursor.mark
  if lexer.keys.any fun key => key.any fun key => key.stale mark && key.required then none
  else
    some { lexer with keys := lexer.keys.map fun key => key.filter fun key => !key.stale mark }

/-- The text after blanks, comments and breaks, with its place and whether a key may start there.
A break allows a key in a block; a tab is a blank only where no key may start. -/
def skipFiller (flow : Bool) : List Char → Mark → Bool → Bool → Cursor × Bool
  | [], mark, keyAllowed, _ => (⟨[], mark⟩, keyAllowed)
  | '\r' :: '\n' :: rest, mark, keyAllowed, _ =>
      skipFiller flow rest mark.newLinePair (keyAllowed || !flow) false
  | character :: rest, mark, keyAllowed, comment =>
      if isBreak character then
        skipFiller flow rest (mark.newLine character) (keyAllowed || !flow) false
      else if comment then skipFiller flow rest (mark.past character) keyAllowed true
      else if character = byteOrderMark && mark.column = 0 then
        skipFiller flow rest (mark.past character) keyAllowed false
      else if character = ' ' || (character = '\t' && (flow || !keyAllowed)) then
        skipFiller flow rest (mark.past character) keyAllowed false
      else if character = '#' then skipFiller flow rest (mark.past character) keyAllowed true
      else (⟨character :: rest, mark⟩, keyAllowed)

/-- Moves to the next token. -/
def toNextToken (lexer : Lexer) : Lexer :=
  let (cursor, keyAllowed) :=
    skipFiller lexer.flow lexer.cursor.rest lexer.cursor.mark lexer.keyAllowed false
  { lexer with cursor, keyAllowed }

/-- The start or end mark of a document. -/
def documentMark (lexer : Lexer) (token : Token) : Option Lexer :=
  lexer.closeAllBlocks.forgetKey.map fun lexer =>
    ({ lexer with keyAllowed := false }.emit token).skip 3

/-- A directive. -/
def directive (lexer : Lexer) : Option Lexer :=
  match lexer.closeAllBlocks.forgetKey with
  | none => none
  | some lexer =>
      (readDirective (lexer.cursor.advance 1)).map fun (token, cursor) =>
        { lexer with keyAllowed := false, cursor }.emit token

/-- The start of a flow collection, which may itself be a key. -/
def openFlow (lexer : Lexer) (token : Token) : Option Lexer :=
  lexer.noteKey.map fun lexer =>
    ({ lexer with keys := none :: lexer.keys, keyAllowed := true }.emit token).skip 1

/-- The end of a flow collection. -/
def closeFlow (lexer : Lexer) (token : Token) : Option Lexer :=
  lexer.forgetKey.map fun lexer =>
    let keys := if lexer.flow then lexer.keys.drop 1 else lexer.keys
    ({ lexer with keys, keyAllowed := false }.emit token).skip 1

/-- The comma between the entries of a flow collection. -/
def flowEntry (lexer : Lexer) : Option Lexer :=
  lexer.forgetKey.map fun lexer => ({ lexer with keyAllowed := true }.emit .flowEntry).skip 1

/-- The hyphen before an entry of a block sequence. -/
def blockEntry (lexer : Lexer) : Option Lexer :=
  if !lexer.flow && !lexer.keyAllowed then none
  else
    (lexer.openBlock lexer.column lexer.count .blockSequence).forgetKey.map fun lexer =>
      ({ lexer with keyAllowed := true }.emit .blockEntry).skip 1

/-- The question mark before a key. -/
def explicitKey (lexer : Lexer) : Option Lexer :=
  if !lexer.flow && !lexer.keyAllowed then none
  else
    (lexer.openBlock lexer.column lexer.count .blockMapping).forgetKey.map fun lexer =>
      ({ lexer with keyAllowed := !lexer.flow }.emit .key).skip 1

/-- The colon before a value. It makes the possible key before it a key. -/
def mappingValue (lexer : Lexer) : Option Lexer :=
  match lexer.keys with
  | some key :: keys =>
      let announced :=
        ({ lexer with keys := none :: keys, keyAllowed := false }.emitAt key.position .key)
      let opened := announced.openBlock key.mark.column key.position .blockMapping
      some ((opened.emit .value).skip 1)
  | _ =>
      if !lexer.flow && !lexer.keyAllowed then none
      else
        let opened := lexer.openBlock lexer.column lexer.count .blockMapping
        some (({ opened with keyAllowed := !lexer.flow }.emit .value).skip 1)

/-- A token that may be a key or belong to one, from its reader. -/
def keyPart (lexer : Lexer) (read : Lexer → Option (Token × Cursor)) : Option Lexer :=
  match lexer.noteKey with
  | none => none
  | some lexer =>
      (read lexer).map fun (token, cursor) =>
        { lexer with keyAllowed := false, cursor }.emit token

/-- An alias or anchor. -/
def named (lexer : Lexer) (token : String → Token) : Option Lexer :=
  lexer.keyPart fun lexer =>
    (readAnchor (lexer.cursor.advance 1)).map fun (name, cursor) => (token name, cursor)

/-- A quoted scalar. -/
def quotedScalar (lexer : Lexer) (single : Bool) : Option Lexer :=
  lexer.keyPart fun lexer =>
    let start := lexer.cursor.advance 1
    (readQuoted single start.rest start.mark .text .empty []).map fun (text, cursor) =>
      (.scalar text false, cursor)

/-- A block scalar. -/
def blockScalar (lexer : Lexer) (literal : Bool) : Option Lexer :=
  match lexer.forgetKey with
  | none => none
  | some lexer =>
      (readBlockScalar literal lexer.columns.head? (lexer.cursor.advance 1)).map
        fun (text, cursor) =>
          { lexer with keyAllowed := true, cursor }.emit (.scalar text false)

/-- A plain scalar. A key may follow the breaks after it. -/
def plainScalar (lexer : Lexer) : Option Lexer :=
  match lexer.noteKey with
  | none => none
  | some lexer =>
      let indent := match lexer.columns with
        | [] => 0
        | column :: _ => column + 1
      (readPlain lexer.flow indent lexer.cursor.rest lexer.cursor.mark .empty []).map fun plain =>
        { lexer with keyAllowed := plain.broken, cursor := plain.cursor }.emit
          (.scalar plain.text true)

/-- Whether a plain scalar may start at a place. -/
def startsPlain (flow : Bool) : List Char → Bool
  | [] => false
  | character :: rest =>
      if character = '-' then !(rest.head?.any isWhite)
      else if character = '?' || character = ':' then !flow && !atGap rest
      else
        !isWhite character && !isBreak character && character.toNat ≠ 0x60 &&
          !",[]\x7b\x7d#&*!|>'\"%@".toList.contains character

/-- Reads the token at the cursor, which stands before no blank. -/
def readToken (lexer : Lexer) (first : Char) (rest : List Char) : Option Lexer :=
  let atStart := lexer.column = 0
  let flow := lexer.flow
  if atStart && first = '%' then lexer.directive
  else if atStart && isDocumentMark (first :: rest) then
    lexer.documentMark (if first = '-' then .documentStart else .documentEnd)
  else if first = '[' then lexer.openFlow .flowSequence
  else if first = '\x7b' then lexer.openFlow .flowMapping
  else if first = ']' then lexer.closeFlow .flowSequenceEnd
  else if first = '\x7d' then lexer.closeFlow .flowMappingEnd
  else if first = ',' then lexer.flowEntry
  else if first = '-' && atGap rest then lexer.blockEntry
  else if first = '?' && (flow || atGap rest) then lexer.explicitKey
  else if first = ':' && (flow || atGap rest) then lexer.mappingValue
  else if first = '*' then lexer.named .reference
  else if first = '&' then lexer.named .anchor
  else if first = '!' then lexer.keyPart fun lexer => readTag lexer.flow lexer.cursor
  else if first = '|' && !flow then lexer.blockScalar true
  else if first = '>' && !flow then lexer.blockScalar false
  else if first = '\x27' then lexer.quotedScalar true
  else if first = '\x22' then lexer.quotedScalar false
  else if startsPlain flow (first :: rest) then lexer.plainScalar
  else none

/-- The tokens of a text that ends at the cursor. -/
def finish (lexer : Lexer) : Option (List Token) :=
  lexer.closeAllBlocks.forgetKey.map fun lexer => lexer.tokens.reverse

/-- Reads tokens up to the end of the text; each takes at least one character. -/
def run : Nat → Lexer → Option (List Token)
  | 0, _ => none
  | fuel + 1, lexer =>
      match lexer.toNextToken.forgetStaleKeys with
      | none => none
      | some lexer =>
          let lexer := lexer.closeBlocks lexer.column
          match lexer.cursor.rest with
          | [] => lexer.finish
          | first :: rest =>
              match lexer.readToken first rest with
              | none => none
              | some lexer => run fuel lexer

end Lexer

/-- The tokens of a text, unless it has none. -/
def Token.ofText? (text : String) : Option (List Token) :=
  let characters := text.toList
  if characters.all isAllowed then Lexer.run (characters.length + 1) (.start characters) else none

end SchemaBeans.Yaml
