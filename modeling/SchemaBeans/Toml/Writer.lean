import SchemaBeans.Toml.Quoted

/-!
# Writing TOML

A string is written in the plainest form that holds it without escapes, and in a
basic form if there is none. An array of two or more strings is written one item
a line.
-/

namespace SchemaBeans.Toml

/-- What decides the form of a string. -/
structure StringTraits where
  /-- The longest run of single quotes. -/
  singleQuotes : Nat
  /-- The longest run of double quotes. -/
  doubleQuotes : Nat
  /-- Whether a control character needs an escape. -/
  controls : Bool
  /-- Whether a backslash occurs. -/
  backslash : Bool
  /-- Whether a line feed occurs. -/
  lineFeed : Bool
  deriving DecidableEq, Repr

/-- Whether a character is a control that no form holds without an escape. -/
def needsEscape (character : Char) : Bool :=
  character ≠ '\t' && character ≠ '\n' &&
    (character.toNat < 0x20 || character.toNat = 0x7F)

/-- The longest run of a character, with the length of the run before the text and the longest run
so far. -/
def longestRun (wanted : Char) (current longest : Nat) : List Char → Nat
  | [] => longest
  | character :: rest =>
      if character = wanted then
        longestRun wanted (current + 1) (max longest (current + 1)) rest
      else longestRun wanted 0 longest rest

/-- The traits of a text. -/
def StringTraits.of (text : List Char) : StringTraits :=
  { singleQuotes := longestRun '\x27' 0 0 text
    doubleQuotes := longestRun '\x22' 0 0 text
    controls := text.any needsEscape
    backslash := text.contains '\\'
    lineFeed := text.contains '\n' }

/-- The forms of a string. -/
inductive StringForm where
  | basic
  | literal
  | multiBasic
  | multiLiteral
  deriving DecidableEq, Repr

/-- The form in which a string is written. -/
def StringTraits.form (traits : StringTraits) : StringForm :=
  if !traits.controls && !traits.backslash && traits.doubleQuotes = 0 && !traits.lineFeed then
    .basic
  else if !traits.controls && traits.singleQuotes = 0 && !traits.lineFeed then .literal
  else if !traits.controls && !traits.backslash && traits.doubleQuotes ≤ 2 then .multiBasic
  else if !traits.controls && traits.singleQuotes ≤ 2 then .multiLiteral
  else if traits.lineFeed then .multiBasic
  else .basic

/-- The upper-case hexadecimal digit of a number below sixteen. -/
def upperDigit (value : Nat) : Char :=
  if value < 10 then Char.ofNat (48 + value) else Char.ofNat (55 + value)

/-- A character of a basic string, apart from quotes and line feeds. -/
def basicCharacter (character : Char) : List Char :=
  match character with
  | '\x08' => ['\\', 'b']
  | '\t' => ['\\', 't']
  | '\x0c' => ['\\', 'f']
  | '\r' => ['\\', 'r']
  | '\\' => ['\\', '\\']
  | other =>
      if needsEscape other then
        ['\\', 'u', '0', '0', upperDigit (other.toNat / 16), upperDigit (other.toNat % 16)]
      else [other]

/-- The characters of a basic string; `quotes` counts the double quotes before the text, and
between three quotes two of them need no escape. -/
def basicBody (multi : Bool) (quotes : Nat) : List Char → List Char
  | [] => []
  | character :: rest =>
      if character = '\x22' then
        if (if multi then 2 else 0) ≤ quotes then '\\' :: '\x22' :: basicBody multi 0 rest
        else '\x22' :: basicBody multi (quotes + 1) rest
      else if character = '\n' then
        if multi then '\n' :: basicBody multi 0 rest else '\\' :: 'n' :: basicBody multi 0 rest
      else basicCharacter character ++ basicBody multi 0 rest

/-- A string in a given form. Between three quotes a text with line feeds starts on a line of its
own. -/
def writeString (form : StringForm) (text : List Char) : List Char :=
  let opening := if text.contains '\n' then ['\n'] else []
  match form with
  | .basic => '\x22' :: basicBody false 0 text ++ ['\x22']
  | .literal => '\x27' :: text ++ ['\x27']
  | .multiBasic =>
      List.replicate 3 '\x22' ++ opening ++ basicBody true 0 text ++ List.replicate 3 '\x22'
  | .multiLiteral => List.replicate 3 '\x27' ++ opening ++ text ++ List.replicate 3 '\x27'

/-- A string as it is written. -/
def stringText (text : String) : String :=
  String.ofList (writeString (StringTraits.of text.toList).form text.toList)

/-- An array of strings as it is written. -/
def stringsText (texts : List String) : String :=
  match texts with
  | [] => "[]"
  | [only] => "[" ++ stringText only ++ "]"
  | several =>
      "[\n" ++ String.join (several.map fun text => "    " ++ stringText text ++ ",\n") ++ "]"

/-- A truth value as it is written. -/
def boolText (value : Bool) : String := if value then "true" else "false"

/-- A line with a key and the text of its value. -/
def line (key value : String) : String := key ++ " = " ++ value ++ "\n"

end SchemaBeans.Toml
