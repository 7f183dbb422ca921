import SchemaBeans.Text.Blank
import SchemaBeans.Text.Pieces

/-!
# Doc comments

A description becomes a documentation comment of the generated source. Its text
cannot close the comment early and cannot start a block tag; blank lines inside
it are kept and blank lines around it are dropped.
-/

namespace SchemaBeans.DocComment

/-- The rest of a line as it stands in a comment; `blankSoFar` tells whether everything before it
is blank. The two characters that close a comment are broken up, and an `@` that nothing but
blanks precede is written so that it starts no tag. -/
def sanitizeFrom (blankSoFar : Bool) : List Char → List Char
  | '*' :: '/' :: rest => "*&#47;".toList ++ sanitizeFrom false rest
  | '@' :: rest =>
      if blankSoFar then "\x7b@literal @\x7d".toList ++ sanitizeFrom false rest
      else '@' :: sanitizeFrom false rest
  | character :: rest => character :: sanitizeFrom (blankSoFar && Text.isBlank character) rest
  | [] => []

/-- A line as it stands in a comment. -/
def sanitize (line : List Char) : List Char := sanitizeFrom true line

/-- A list of lines without the empty ones at either end. -/
def withoutOuterEmpty (lines : List (List Char)) : List (List Char) :=
  ((lines.dropWhile List.isEmpty).reverse.dropWhile List.isEmpty).reverse

/-- The trimmed lines of a text from its first to its last one that is not blank. -/
def contentLines (text : List Char) : List (List Char) :=
  withoutOuterEmpty ((Text.lines text).map Text.trim)

/-- One line of a comment's content. -/
def contentLine (indent : List Char) (line : List Char) : List Char :=
  if line = [] then indent ++ " *".toList else indent ++ " * ".toList ++ sanitize line

/-- The lines of the comment for a text; none for a blank text. -/
def lines (indent : List Char) (text : List Char) : List (List Char) :=
  match contentLines text with
  | [] => []
  | content =>
      (indent ++ "/**".toList) :: content.map (contentLine indent) ++ [indent ++ " */".toList]

/-- The comment for a text, with a line feed after each of its lines. -/
def render (indent text : String) : String :=
  String.ofList ((lines indent.toList text.toList).flatMap fun line => line ++ ['\n'])

/-- A whole text as it stands in a comment, taken as one line. -/
def sanitizeText (text : String) : String := String.ofList (sanitize text.toList)

end SchemaBeans.DocComment
