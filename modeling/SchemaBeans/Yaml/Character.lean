import SchemaBeans.Text.CodePoint

/-!
# Characters of YAML

The character classes that the tokens of a YAML text are made of.
-/

namespace SchemaBeans.Yaml

/-- The mark that may start a line of a text to tell its byte order. -/
def byteOrderMark : Char := '\uFEFF'

/-- Whether a character may occur in a text at all. -/
def isAllowed (character : Char) : Bool :=
  let code := character.toNat
  code = 0x09 || code = 0x0A || code = 0x0D || (0x20 ≤ code && code ≤ 0x7E) || code = 0x85 ||
    (0xA0 ≤ code && code ≤ 0xFFFD) || 0x10000 ≤ code

/-- A space or a tab. -/
def isWhite (character : Char) : Bool := character = ' ' || character = '\t'

/-- A line break: carriage return, line feed, next line, line separator or paragraph separator. -/
def isBreak (character : Char) : Bool :=
  character = '\r' || character = '\n' || character = '\u0085' || character = '\u2028' ||
    character = '\u2029'

/-- Whether a text ends here or goes on with a blank or a break. -/
def atGap : List Char → Bool
  | [] => true
  | character :: _ => isWhite character || isBreak character

/-- A letter, digit, underscore or hyphen. -/
def isWord (character : Char) : Bool :=
  character.isAlphanum || character = '_' || character = '-'

/-- What a break contributes to a scalar: a line feed, but the Unicode separators stay. -/
def breakText (character : Char) : List Char :=
  if character = '\u2028' || character = '\u2029' then [character] else ['\n']

/-- Whether a text starts with `---` or `...` and a gap after it. -/
def isDocumentMark : List Char → Bool
  | '-' :: '-' :: '-' :: rest => atGap rest
  | '.' :: '.' :: '.' :: rest => atGap rest
  | _ => false

end SchemaBeans.Yaml
