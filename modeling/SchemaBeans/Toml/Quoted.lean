import SchemaBeans.Toml.Scalar

/-!
# Quoted strings of TOML

A basic string stands between double quotes and has escapes; a literal string
stands between single quotes and has none. Three quotes enclose a string that
may hold line breaks, and up to two of them may stand at its end.
-/

namespace SchemaBeans.Toml

/-- Whether a character may stand in a string or comment: no control but the tab. -/
def isPrintable (character : Char) : Bool :=
  character = '\t' || (0x20 ≤ character.toNat && character.toNat ≠ 0x7F)

/-- A space or a tab. -/
def isWhite (character : Char) : Bool := character = ' ' || character = '\t'

/-- The length of a line break at the start of a text, zero if there is none. -/
def breakWidth : List Char → Nat
  | '\n' :: _ => 1
  | '\r' :: '\n' :: _ => 2
  | _ => 0

/-- Where a reader is inside a basic string. -/
inductive StringMode where
  | text
  /-- After a backslash. -/
  | escape
  /-- Inside a code point with some hexadecimal digits still to come. -/
  | code (left value : Nat)
  /-- In the blanks after a backslash at the end of a line; `broken` tells whether the line break
  was seen. -/
  | trimming (broken : Bool)
  deriving DecidableEq, Repr

/-- The character of a short escape. -/
def shortEscape? : Char → Option Char
  | 'b' => some '\x08'
  | 't' => some '\t'
  | 'n' => some '\n'
  | 'f' => some '\x0c'
  | 'r' => some '\r'
  | 'e' => some '\x1b'
  | '\x22' => some '\x22'
  | '\\' => some '\\'
  | _ => none

/-- The number of hexadecimal digits of a long escape. -/
def escapeDigits? : Char → Option Nat
  | 'x' => some 2
  | 'u' => some 4
  | 'U' => some 8
  | _ => none

/-- The number of quotes at the start of a text. -/
def quoteRun (quote : Char) (text : List Char) : Nat := (text.takeWhile (· = quote)).length

/-- What a quote at the start of a text means inside a string: nothing special, or the end of the
string with some quotes before it; more than two such quotes are an error. -/
def quotesAtEnd? (multi : Bool) (quote : Char) (text : List Char) : Option Nat :=
  if !multi then some 0
  else if 3 ≤ quoteRun quote text then some (quoteRun quote text - 3)
  else none

/-- Whether a character may stand for itself inside a string. -/
def isStringCharacter (multi : Bool) (character : Char) (rest : List Char) : Bool :=
  isPrintable character ||
    (multi && (character = '\n' || (character = '\r' && rest.head? = some '\n')))

/-- The end of a string with some quotes before it. -/
def endString (quote : Char) (quotes : Nat) (multi : Bool) (text rest : List Char) :
    Option (String × List Char) :=
  if 2 < quotes then none
  else
    some (String.ofList (text.reverse ++ List.replicate quotes quote),
      rest.drop (if multi then quotes + 3 else 1))

/-- Reads a basic string after its opening quotes; the characters read so far come in reverse. -/
def readBasic (multi : Bool) :
    List Char → StringMode → List Char → Option (String × List Char)
  | [], _, _ => none
  | character :: rest, .code left value, text =>
      match Text.hexValue? character with
      | none => none
      | some digit =>
          let value := value * 16 + digit
          if left ≤ 1 then
            match Text.codePoint? value with
            | none => none
            | some decoded => readBasic multi rest .text (decoded :: text)
          else readBasic multi rest (.code (left - 1) value) text
  | character :: rest, .escape, text =>
      if multi && isWhite character then readBasic multi rest (.trimming false) text
      else if multi && character = '\n' then readBasic multi rest (.trimming true) text
      else if multi && character = '\r' then
        if rest.head? = some '\n' then readBasic multi rest (.trimming false) text else none
      else
        match shortEscape? character, escapeDigits? character with
        | some decoded, _ => readBasic multi rest .text (decoded :: text)
        | none, some digits => readBasic multi rest (.code digits 0) text
        | none, none => none
  | character :: rest, mode, text =>
      if mode ≠ .text && isWhite character then readBasic multi rest mode text
      else if mode ≠ .text && character = '\n' then readBasic multi rest (.trimming true) text
      else if mode ≠ .text && character = '\r' && rest.head? = some '\n' then
        readBasic multi rest mode text
      else if mode = .trimming false then none
      else if character = '\x22' then
        match quotesAtEnd? multi '\x22' (character :: rest) with
        | some quotes => endString '\x22' quotes multi text (character :: rest)
        | none => readBasic multi rest .text (character :: text)
      else if character = '\\' then readBasic multi rest .escape text
      else if isStringCharacter multi character rest then
        readBasic multi rest .text (character :: text)
      else none

/-- Reads a literal string after its opening quotes; the characters read so far come in
reverse. -/
def readLiteral (multi : Bool) : List Char → List Char → Option (String × List Char)
  | [], _ => none
  | character :: rest, text =>
      if character = '\x27' then
        match quotesAtEnd? multi '\x27' (character :: rest) with
        | some quotes => endString '\x27' quotes multi text (character :: rest)
        | none => readLiteral multi rest (character :: text)
      else if isStringCharacter multi character rest then
        readLiteral multi rest (character :: text)
      else none

/-- Reads a string at its opening quote. A line break right after three quotes is left out. -/
def readString (text : List Char) : Option (String × List Char) :=
  match text with
  | '\x22' :: '\x22' :: '\x22' :: rest => readBasic true (rest.drop (breakWidth rest)) .text []
  | '\x22' :: rest => readBasic false rest .text []
  | '\x27' :: '\x27' :: '\x27' :: rest => readLiteral true (rest.drop (breakWidth rest)) []
  | '\x27' :: rest => readLiteral false rest []
  | _ => none

/-- Reads a string that may stand as a key: one without line breaks. -/
def readKeyString (text : List Char) : Option (String × List Char) :=
  match text with
  | '\x22' :: rest => readBasic false rest .text []
  | '\x27' :: rest => readLiteral false rest []
  | _ => none

end SchemaBeans.Toml
