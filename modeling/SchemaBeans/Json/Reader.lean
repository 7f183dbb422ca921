import SchemaBeans.Json
import SchemaBeans.Text.CodePoint

/-!
# Reading JSON

A reader for one JSON document. Arrays and objects may be nested up to a limit;
what nests deeper is refused like malformed text.
-/

namespace SchemaBeans.Json

/-- What a reading step gives: a result with the rest of the text, unless the text is malformed. -/
abbrev Step (α : Type) := Option (α × List Char)

/-- Arrays and objects may be nested this deep. -/
def nestingLimit : Nat := 127

/-- A blank of JSON. -/
def isSpace (character : Char) : Bool :=
  character = ' ' || character = '\n' || character = '\r' || character = '\t'

/-- The text after its leading blanks. -/
def skipSpace (text : List Char) : List Char := text.dropWhile isSpace

/-- The number of four hexadecimal digits at the start of a text. -/
def fourDigits? : List Char → Option (Nat × List Char)
  | a :: b :: c :: d :: rest => do
      let high := (← Text.hexValue? a) * 4096 + (← Text.hexValue? b) * 256
      some (high + (← Text.hexValue? c) * 16 + (← Text.hexValue? d), rest)
  | _ => none

/-- The character of an escape, after the backslash. Code points above the first plane are written
as two escapes. -/
def escaped? : List Char → Step Char
  | '\x22' :: rest => some ('\x22', rest)
  | '\\' :: rest => some ('\\', rest)
  | '/' :: rest => some ('/', rest)
  | 'b' :: rest => some ('\x08', rest)
  | 'f' :: rest => some ('\x0c', rest)
  | 'n' :: rest => some ('\n', rest)
  | 'r' :: rest => some ('\r', rest)
  | 't' :: rest => some ('\t', rest)
  | 'u' :: rest =>
      match fourDigits? rest with
      | none => none
      | some (code, rest) =>
          if 0xD800 ≤ code && code < 0xDC00 then
            match rest with
            | '\\' :: 'u' :: more =>
                match fourDigits? more with
                | some (low, rest) =>
                    if 0xDC00 ≤ low && low < 0xE000 then
                      some (Char.ofNat (0x10000 + (code - 0xD800) * 0x400 + (low - 0xDC00)), rest)
                    else none
                | none => none
            | _ => none
          else if 0xDC00 ≤ code && code < 0xE000 then none
          else some (Char.ofNat code, rest)
  | _ => none

/-- The characters of a string up to its closing quote; each step takes at least one character. -/
def stringBody : Nat → List Char → Step (List Char)
  | 0, _ => none
  | _, [] => none
  | fuel + 1, character :: rest =>
      if character = '\x22' then some ([], rest)
      else if character = '\\' then
        match escaped? rest with
        | some (value, rest) =>
            (stringBody fuel rest).map fun (more, rest) => (value :: more, rest)
        | none => none
      else if character.toNat < 0x20 then none
      else (stringBody fuel rest).map fun (more, rest) => (character :: more, rest)

/-- A string after its opening quote. -/
def readString (text : List Char) : Step String :=
  (stringBody (text.length + 1) text).map fun (characters, rest) =>
    (String.ofList characters, rest)

/-- The digits at the start of a text, at least one. -/
def readDigits (text : List Char) : Step (List Char) :=
  match text.takeWhile Char.isDigit with
  | [] => none
  | digits => some (digits, text.dropWhile Char.isDigit)

/-- The whole part of a number: a zero, or digits that start with no zero. -/
def wholePart (text : List Char) : Step (List Char) :=
  match text with
  | '0' :: rest => some (['0'], rest)
  | _ => readDigits text

/-- The fraction of a number, if it has one. -/
def fractionPart (text : List Char) : Step (List Char) :=
  match text with
  | '.' :: rest => (readDigits rest).map fun (digits, rest) => ('.' :: digits, rest)
  | _ => some ([], text)

/-- The exponent of a number, if it has one. -/
def exponentPart (text : List Char) : Step (List Char) :=
  match text with
  | 'e' :: '+' :: rest => (readDigits rest).map fun (digits, rest) => ('e' :: digits, rest)
  | 'e' :: '-' :: rest => (readDigits rest).map fun (digits, rest) => ('e' :: '-' :: digits, rest)
  | 'e' :: rest => (readDigits rest).map fun (digits, rest) => ('e' :: digits, rest)
  | 'E' :: '+' :: rest => (readDigits rest).map fun (digits, rest) => ('e' :: digits, rest)
  | 'E' :: '-' :: rest => (readDigits rest).map fun (digits, rest) => ('e' :: '-' :: digits, rest)
  | 'E' :: rest => (readDigits rest).map fun (digits, rest) => ('e' :: digits, rest)
  | _ => some ([], text)

/-- A number without its sign. -/
def magnitude (text : List Char) : Option (List Char × List Char) := do
  let (whole, text) ← wholePart text
  let (fraction, text) ← fractionPart text
  let (exponent, text) ← exponentPart text
  some (whole ++ fraction ++ exponent, text)

/-- A number. -/
def readNumber (text : List Char) : Step Json :=
  match text with
  | '-' :: rest =>
      (magnitude rest).map fun (digits, rest) => (number (String.ofList ('-' :: digits)), rest)
  | _ => (magnitude text).map fun (digits, rest) => (number (String.ofList digits), rest)

/-- A text after a given beginning. -/
def after? (beginning : String) (text : List Char) : Option (List Char) :=
  if text.take beginning.length = beginning.toList then some (text.drop beginning.length) else none

mutual

/-- A value. The first number bounds the steps, the second the depth of nesting. -/
def readValue : Nat → Nat → List Char → Step Json
  | 0, _, _ => none
  | fuel + 1, depth, text =>
      match skipSpace text with
      | '\x22' :: rest => (readString rest).map fun (content, rest) => (string content, rest)
      | 'n' :: rest => (after? "ull" rest).map fun rest => (null, rest)
      | 't' :: rest => (after? "rue" rest).map fun rest => (bool true, rest)
      | 'f' :: rest => (after? "alse" rest).map fun rest => (bool false, rest)
      | '[' :: rest =>
          match depth with
          | 0 => none
          | depth + 1 =>
              match skipSpace rest with
              | ']' :: rest => some (array [], rest)
              | text =>
                  (readElements fuel depth text).map fun (elements, rest) => (array elements, rest)
      | '\x7b' :: rest =>
          match depth with
          | 0 => none
          | depth + 1 =>
              match skipSpace rest with
              | '\x7d' :: rest => some (object [], rest)
              | text =>
                  (readMembers fuel depth text).map fun (members, rest) => (object members, rest)
      | text => readNumber text

/-- The elements of an array that has at least one, and its closing bracket. -/
def readElements : Nat → Nat → List Char → Step (List Json)
  | 0, _, _ => none
  | fuel + 1, depth, text =>
      match readValue fuel depth text with
      | none => none
      | some (element, rest) =>
          match skipSpace rest with
          | ',' :: rest =>
              (readElements fuel depth rest).map fun (elements, rest) => (element :: elements, rest)
          | ']' :: rest => some ([element], rest)
          | _ => none

/-- The members of an object that has at least one, and its closing brace. -/
def readMembers : Nat → Nat → List Char → Step (List (String × Json))
  | 0, _, _ => none
  | fuel + 1, depth, text =>
      match skipSpace text with
      | '\x22' :: rest =>
          match readString rest with
          | none => none
          | some (name, rest) =>
              match skipSpace rest with
              | ':' :: rest =>
                  match readValue fuel depth rest with
                  | none => none
                  | some (value, rest) =>
                      match skipSpace rest with
                      | ',' :: rest =>
                          (readMembers fuel depth rest).map fun (members, rest) =>
                            ((name, value) :: members, rest)
                      | '\x7d' :: rest => some ([(name, value)], rest)
                      | _ => none
              | _ => none
      | _ => none

end

/-- The value of a JSON document. Every step of the reader takes a character, apart from those
that only start a value. -/
def parse? (text : String) : Option Json :=
  let characters := text.toList
  match readValue (2 * characters.length + 2) nestingLimit characters with
  | some (value, rest) => if (skipSpace rest).isEmpty then some value else none
  | none => none

end SchemaBeans.Json
