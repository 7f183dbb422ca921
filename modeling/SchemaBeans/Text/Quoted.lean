import SchemaBeans.Text.PrintableTable

/-!
# Quoted text in messages

A text is shown between double quotes. Quotes, backslashes and the usual
controls get a backslash; a character without a glyph of its own, or one that
would join the character before it, is shown by its code point.
-/

namespace SchemaBeans.Text

/-- The lower-case hexadecimal digits of a number. -/
def hexDigits (number : Nat) : List Char := Nat.toDigits 16 number

/-- The code point form of a character. -/
def codePointEscape (character : Char) : List Char :=
  ['\\', 'u', '\x7b'] ++ hexDigits character.toNat ++ ['\x7d']

/-- One character as it stands between the quotes. -/
def quoteChar (character : Char) : List Char :=
  match character with
  | '\x00' => ['\\', '0']
  | '\t' => ['\\', 't']
  | '\r' => ['\\', 'r']
  | '\n' => ['\\', 'n']
  | '\x22' => ['\\', '\x22']
  | '\\' => ['\\', '\\']
  | other =>
      if 0x20 ≤ other.toNat && other.toNat < 0x7F then [other]
      else if extenderRanges.contains other || glyphlessRanges.contains other ||
          fillerRanges.contains other then
        codePointEscape other
      else [other]

/-- The text between double quotes. -/
def quoted (text : String) : String :=
  String.ofList ('\x22' :: text.toList.flatMap quoteChar ++ ['\x22'])

end SchemaBeans.Text
