import SchemaBeans.Text.Pieces

/-!
# JSON

Values, their compact and their indented text. Text is written as it is, apart
from quotes, backslashes and control characters. An object is an ordered list of
members.
-/

namespace SchemaBeans

/-- A JSON value. A number is kept as it is written. -/
inductive Json where
  | null
  | bool (value : Bool)
  | number (text : String)
  | string (text : String)
  | array (elements : List Json)
  | object (members : List (String × Json))
  deriving Repr

namespace Json

/-- The lower-case hexadecimal digit of a number below sixteen. -/
def hexDigit (value : Nat) : Char :=
  if value < 10 then Char.ofNat (48 + value) else Char.ofNat (87 + value)

/-- One character inside a string. -/
def escape (character : Char) : List Char :=
  match character with
  | '\x22' => ['\\', '\x22']
  | '\\' => ['\\', '\\']
  | '\x08' => ['\\', 'b']
  | '\x0c' => ['\\', 'f']
  | '\n' => ['\\', 'n']
  | '\r' => ['\\', 'r']
  | '\t' => ['\\', 't']
  | other =>
      if other.toNat < 0x20 then
        ['\\', 'u', '0', '0', hexDigit (other.toNat / 16), hexDigit (other.toNat % 16)]
      else [other]

/-- A string with its quotes. -/
def stringText (text : String) : List Char :=
  '\x22' :: text.toList.flatMap escape ++ ['\x22']

mutual

/-- The text of a value without blanks. -/
def compact : Json → List Char
  | null => "null".toList
  | bool true => "true".toList
  | bool false => "false".toList
  | number text => text.toList
  | string text => stringText text
  | array elements => '[' :: Text.join [','] (compactElements elements) ++ [']']
  | object members => '\x7b' :: Text.join [','] (compactMembers members) ++ ['\x7d']

/-- The texts of the elements of an array. -/
def compactElements : List Json → List (List Char)
  | [] => []
  | element :: elements => compact element :: compactElements elements

/-- The texts of the members of an object. -/
def compactMembers : List (String × Json) → List (List Char)
  | [] => []
  | (name, value) :: members =>
      (stringText name ++ ':' :: compact value) :: compactMembers members

end

/-- The start of a line at a depth of nesting: two spaces for each level. -/
def lineStart (depth : Nat) : List Char := '\n' :: List.replicate (2 * depth) ' '

/-- The items of an array or object between its brackets, one a line; without items the brackets
stand together. -/
def block (depth : Nat) (opening closing : Char) (items : List (List Char)) : List Char :=
  if items.isEmpty then [opening, closing]
  else
    opening :: lineStart (depth + 1) ++ Text.join (',' :: lineStart (depth + 1)) items ++
      lineStart depth ++ [closing]

mutual

/-- The indented text of a value at a depth of nesting. -/
def indented (depth : Nat) : Json → List Char
  | null => "null".toList
  | bool true => "true".toList
  | bool false => "false".toList
  | number text => text.toList
  | string text => stringText text
  | array elements => block depth '[' ']' (indentedElements (depth + 1) elements)
  | object members => block depth '\x7b' '\x7d' (indentedMembers (depth + 1) members)

/-- The indented texts of the elements of an array. -/
def indentedElements (depth : Nat) : List Json → List (List Char)
  | [] => []
  | element :: elements => indented depth element :: indentedElements depth elements

/-- The indented texts of the members of an object. -/
def indentedMembers (depth : Nat) : List (String × Json) → List (List Char)
  | [] => []
  | (name, value) :: members =>
      (stringText name ++ ": ".toList ++ indented depth value) :: indentedMembers depth members

end

/-- The compact text of a value. -/
def render (value : Json) : String := String.ofList value.compact

/-- The indented text of a value. -/
def renderIndented (value : Json) : String := String.ofList (indented 0 value)

/-- The member of an object with a given name. -/
def member? (name : String) : Json → Option Json
  | object members => members.lookup name
  | _ => none

/-- The text of a string. -/
def text? : Json → Option String
  | string text => some text
  | _ => none

/-- The elements of an array. -/
def elements? : Json → Option (List Json)
  | array elements => some elements
  | _ => none

end Json

end SchemaBeans
