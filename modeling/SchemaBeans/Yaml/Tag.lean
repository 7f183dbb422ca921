/-!
# Tags

A tag tells what kind of value a node has. Its text comes from a handle, a
suffix and escapes, and need not be made of characters; `Tag.ofText` keeps of it
what bears on the meaning of a node.
-/

namespace SchemaBeans.Yaml

/-- The text of a tag. An escape may stand for a code point that no character has. -/
abbrev TagText := List (Option Char)

namespace TagText

/-- The text of some characters. -/
def ofString (text : String) : TagText := text.toList.map some

/-- A tag's text goes on up to the first NUL. -/
def upToNull (text : TagText) : TagText := text.takeWhile (· ≠ some '\x00')

/-- The characters of a text, if each of its code points is one. -/
def characters? (text : TagText) : Option String := (text.mapM id).map String.ofList

end TagText

/-- What a tag says about its node. -/
inductive Tag where
  | null
  | bool
  | int
  | float
  /-- A local tag, which starts with `!`. It has a name if its text is made of characters. -/
  | own (name : Option String)
  /-- Any other tag; it makes a scalar text. -/
  | other
  deriving DecidableEq, Repr

namespace Tag

/-- What the tags of the basic kinds start with. -/
def basicSpace : String := "tag:yaml.org,2002:"

/-- The tag of a basic kind. -/
def basic (text : String) : Tag :=
  if text = basicSpace ++ "null" then null
  else if text = basicSpace ++ "bool" then bool
  else if text = basicSpace ++ "int" then int
  else if text = basicSpace ++ "float" then float
  else other

/-- The tag of a text. A local tag is named by what follows its mark, or by the mark alone. -/
def ofText (text : TagText) : Tag :=
  match text with
  | [some '!'] => own (some "!")
  | some '!' :: rest => own (TagText.characters? rest)
  | text =>
      match TagText.characters? text with
      | some text => basic text
      | none => other

end Tag

end SchemaBeans.Yaml
