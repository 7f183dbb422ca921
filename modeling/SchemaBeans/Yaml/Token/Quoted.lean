import SchemaBeans.Yaml.Token.Gap

/-!
# Quoted scalars

Between single quotes only the doubled quote is special; between double quotes a
backslash starts an escape. Line breaks are folded in both.
-/

namespace SchemaBeans.Yaml

/-- Where a reader is inside a quoted scalar. -/
inductive QuotedMode where
  | text
  /-- After a backslash. -/
  | escape
  /-- Inside a code point with some hexadecimal digits still to come. -/
  | code (left value : Nat)
  deriving DecidableEq, Repr

/-- The character of a short escape. -/
def shortEscape? : Char → Option Char
  | '0' => some '\x00'
  | 'a' => some '\x07'
  | 'b' => some '\x08'
  | 't' => some '\t'
  | '\t' => some '\t'
  | 'n' => some '\n'
  | 'v' => some '\x0b'
  | 'f' => some '\x0c'
  | 'r' => some '\r'
  | 'e' => some '\x1b'
  | ' ' => some ' '
  | '\x22' => some '\x22'
  | '/' => some '/'
  | '\\' => some '\\'
  | 'N' => some '\u0085'
  | '_' => some '\u00A0'
  | 'L' => some '\u2028'
  | 'P' => some '\u2029'
  | _ => none

/-- The number of hexadecimal digits of a long escape. -/
def escapeDigits? : Char → Option Nat
  | 'x' => some 2
  | 'u' => some 4
  | 'U' => some 8
  | _ => none

/-- Reads a quoted scalar after its opening quote. The characters read so far come in reverse, and
the gap after them is pending. -/
def readQuoted (single : Bool) :
    List Char → Mark → QuotedMode → Gap → List Char → Option (String × Cursor)
  | [], _, _, _, _ => none
  | '\r' :: '\n' :: rest, mark, mode, gap, text =>
      match mode with
      | .text => readQuoted single rest mark.newLinePair .text (gap.addBreak ['\n']) text
      | .escape => readQuoted single rest mark.newLinePair .text .escapedBreak text
      | .code _ _ => none
  | character :: rest, mark, .code left value, _, text =>
      match Text.hexValue? character with
      | none => none
      | some digit =>
          let value := value * 16 + digit
          if left ≤ 1 then
            match Text.codePoint? value with
            | none => none
            | some decoded =>
                readQuoted single rest (mark.past character) .text .empty (decoded :: text)
          else readQuoted single rest (mark.past character) (.code (left - 1) value) .empty text
  | character :: rest, mark, .escape, _, text =>
      if isBreak character then
        readQuoted single rest (mark.newLine character) .text .escapedBreak text
      else
        match shortEscape? character, escapeDigits? character with
        | some decoded, _ =>
            readQuoted single rest (mark.past character) .text .empty (decoded :: text)
        | none, some digits =>
            readQuoted single rest (mark.past character) (.code digits 0) .empty text
        | none, none => none
  | character :: rest, mark, .text, gap, text =>
      if isWhite character then
        readQuoted single rest (mark.past character) .text (gap.addBlank character) text
      else if isBreak character then
        readQuoted single rest (mark.newLine character) .text
          (gap.addBreak (breakText character)) text
      else if gap.nonempty && mark.column = 0 && isDocumentMark (character :: rest) then none
      else
        let text := gap.folded.reverse ++ text
        if single && character = '\x27' then
          match rest with
          | '\x27' :: rest =>
              readQuoted single rest ((mark.past character).past character) .text .empty
                ('\x27' :: text)
          | rest => some (String.ofList text.reverse, ⟨rest, mark.past character⟩)
        else if !single && character = '\x22' then
          some (String.ofList text.reverse, ⟨rest, mark.past character⟩)
        else if !single && character = '\\' then
          readQuoted single rest (mark.past character) .escape .empty text
        else readQuoted single rest (mark.past character) .text .empty (character :: text)

end SchemaBeans.Yaml
