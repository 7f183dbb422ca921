/-!
# Digits and code points

The digits that stand for numbers and code points in a text, and which code points are characters.
-/

namespace SchemaBeans.Text

/-- The value of a hexadecimal digit. -/
def hexValue? (character : Char) : Option Nat :=
  if character.isDigit then some (character.toNat - 48)
  else if 'a' ≤ character && character ≤ 'f' then some (character.toNat - 87)
  else if 'A' ≤ character && character ≤ 'F' then some (character.toNat - 55)
  else none

/-- The value of a digit in a base up to sixteen. -/
def digitValue? (base : Nat) (character : Char) : Option Nat :=
  (hexValue? character).filter (· < base)

/-- The character of a code point; surrogates and numbers beyond Unicode have none. -/
def codePoint? (code : Nat) : Option Char :=
  if (0xD800 ≤ code && code < 0xE000) || 0x10FFFF < code then none else some (Char.ofNat code)

end SchemaBeans.Text
