import SchemaBeans.Text.Ranges

/-!
# Blank characters, trimming and lines

A character is blank when it has the Unicode property White_Space, which is
more than the four characters that core calls white space. Trimming removes
blanks; lines end at a line feed, and one carriage return before it goes too.
-/

namespace SchemaBeans.Text

/-- The code points with the Unicode property White_Space. -/
def blankRanges : Ranges :=
  [(0x09, 0x0D), (0x20, 0x20), (0x85, 0x85), (0xA0, 0xA0), (0x1680, 0x1680), (0x2000, 0x200A),
   (0x2028, 0x2029), (0x202F, 0x202F), (0x205F, 0x205F), (0x3000, 0x3000)]

/-- Whether `character` has the Unicode property White_Space. -/
def isBlank (character : Char) : Bool := blankRanges.contains character

/-- A text is blank when it holds nothing but blank characters. -/
def allBlank (text : List Char) : Bool := text.all isBlank

/-- The text without its leading blanks. -/
def trimStart (text : List Char) : List Char := text.dropWhile isBlank

/-- The text without its trailing blanks. -/
def trimEnd (text : List Char) : List Char := (text.reverse.dropWhile isBlank).reverse

/-- The text without blanks at either end. -/
def trim (text : List Char) : List Char := trimEnd (trimStart text)

/-- A line feed also takes one carriage return before it; `reversed` is the line so far, last
character first. -/
def dropCarriageReturn : List Char → List Char
  | '\r' :: reversed => reversed
  | reversed => reversed

/-- Reads lines with the characters of the current line collected in reverse. -/
def linesFrom : List Char → List Char → List (List Char)
  | [], [] => []
  | [], character :: reversed => [(character :: reversed).reverse]
  | '\n' :: rest, reversed => (dropCarriageReturn reversed).reverse :: linesFrom rest []
  | character :: rest, reversed => linesFrom rest (character :: reversed)

/-- The lines of a text without their line breaks. A line feed at the very end starts no further
line, and only a line feed ends a line. -/
def lines (text : List Char) : List (List Char) := linesFrom text []

theorem length_trimStart_le (text : List Char) : (trimStart text).length ≤ text.length :=
  (List.dropWhile_sublist isBlank).length_le

theorem length_trimEnd_le (text : List Char) : (trimEnd text).length ≤ text.length := by
  have bound := (List.dropWhile_sublist isBlank (l := text.reverse)).length_le
  simpa [trimEnd] using bound

/-- Trimming makes no text longer. -/
theorem length_trim_le (text : List Char) : (trim text).length ≤ text.length :=
  Nat.le_trans (length_trimEnd_le _) (length_trimStart_le _)

end SchemaBeans.Text
