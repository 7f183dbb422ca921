import SchemaBeans.Text.Case
import SchemaBeans.Text.Pieces

/-!
# Identifiers of the generated sources

Type, property and package names must be identifiers of the generated language
and must not be reserved words. Identifiers are ASCII; the stem of an accessor
is not restricted, since it is also formed for names that are then refused.
-/

namespace SchemaBeans.Identifier

/-- The words that cannot be used as identifiers. -/
def reservedWords : List String :=
  ["_", "abstract", "assert", "boolean", "break", "byte", "case", "catch", "char", "class",
   "const", "continue", "default", "do", "double", "else", "enum", "extends", "false", "final",
   "finally", "float", "for", "goto", "if", "implements", "import", "instanceof", "int",
   "interface", "long", "native", "new", "null", "package", "private", "protected", "public",
   "return", "short", "static", "strictfp", "super", "switch", "synchronized", "this", "throw",
   "throws", "transient", "true", "try", "void", "volatile", "while"]

/-- Whether a character may start an identifier: an ASCII letter, `_` or `$`. -/
def isStart (character : Char) : Bool :=
  character.isAlpha || character = '_' || character = '$'

/-- Whether a character may stand inside an identifier. -/
def isPart (character : Char) : Bool :=
  character.isAlphanum || character = '_' || character = '$'

/-- Whether a text has the shape of an identifier. -/
def hasShape : List Char → Bool
  | [] => false
  | first :: rest => isStart first && rest.all isPart

/-- Whether a name has the shape of an identifier. -/
def isIdentifier (name : String) : Bool := hasShape name.toList

/-- Whether a name is a reserved word. -/
def isReserved (name : String) : Bool := reservedWords.contains name

/-- Whether a name can be declared as it stands. -/
def isValid (name : String) : Bool := isIdentifier name && !isReserved name

/-- Whether a text is a package name: empty, or valid identifiers between dots. -/
def isPackage (name : String) : Bool :=
  name.isEmpty || (Text.splitString '.' name).all isValid

/-- The part of an accessor name that comes from its property: the name with its first character
in upper case. -/
def stem (property : String) : String := String.ofList (Text.upperFirst property.toList)

end SchemaBeans.Identifier
