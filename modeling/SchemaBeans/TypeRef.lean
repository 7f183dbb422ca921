import SchemaBeans.Text.Blank
import SchemaBeans.Text.Letter

/-!
# Type references

The type of a property is written as a short text: a primitive keyword or one
of its aliases, `list<` … `>` around another type, or the name of a model.
`TypeRef.parse` reads such a text and `TypeRef.print` writes the canonical one.
Whether a named model exists is not decided here.
-/

namespace SchemaBeans

/-- The primitive types that every schema may use. -/
inductive Primitive where
  | string
  | int
  | long
  | float
  | double
  | boolean
  | decimal
  | date
  | datetime
  | bytes
  deriving DecidableEq, Repr

namespace Primitive

/-- All primitives in the order in which they are documented. -/
def all : List Primitive :=
  [string, int, long, float, double, boolean, decimal, date, datetime, bytes]

/-- The canonical keyword of a primitive. -/
def keyword : Primitive → String
  | string => "string"
  | int => "int"
  | long => "long"
  | float => "float"
  | double => "double"
  | boolean => "boolean"
  | decimal => "decimal"
  | date => "date"
  | datetime => "datetime"
  | bytes => "bytes"

/-- Every accepted spelling with its primitive; the canonical keyword of a primitive comes first. -/
def spellings : List (String × Primitive) :=
  [("string", string), ("str", string), ("text", string),
   ("int", int), ("integer", int), ("int32", int),
   ("long", long), ("int64", long),
   ("float", float), ("float32", float),
   ("double", double), ("number", double), ("float64", double),
   ("boolean", boolean), ("bool", boolean),
   ("decimal", decimal),
   ("date", date),
   ("datetime", datetime), ("timestamp", datetime),
   ("bytes", bytes), ("binary", bytes)]

/-- The primitive that a keyword or alias names; letter case matters. -/
def ofKeyword? (keyword : String) : Option Primitive := spellings.lookup keyword

end Primitive

/-- The type of a property. -/
inductive TypeRef where
  | primitive (type : Primitive)
  | model (name : String)
  | list (element : TypeRef)
  deriving DecidableEq, Repr

/-- Why a text is not a type. -/
inductive TypeError where
  | empty
  | malformedList (text : String)
  | invalidName (text : String)
  deriving DecidableEq, Repr

/-- The wording of a type error. -/
def TypeError.message : TypeError → String
  | empty => "type is empty"
  | malformedList text => "malformed list type `" ++ text ++ "`"
  | invalidName text => "`" ++ text ++ "` is not a valid type name"

namespace TypeRef

/-- The canonical text of a type. -/
def print : TypeRef → String
  | primitive type => type.keyword
  | model name => name
  | list element => "list<" ++ element.print ++ ">"

/-- The model that a type mentions, below any number of lists. -/
def reference? : TypeRef → Option String
  | primitive _ => none
  | model name => some name
  | list element => element.reference?

/-- What follows `list<` at the start of a text; the letters may have either ASCII case. -/
def afterListHead? : List Char → Option (List Char)
  | l :: i :: s :: t :: '<' :: rest =>
      if l.toLower = 'l' && i.toLower = 'i' && s.toLower = 's' && t.toLower = 't' then some rest
      else none
  | _ => none

/-- The text before a final `>`. -/
def beforeListTail? (text : List Char) : Option (List Char) :=
  match text.reverse with
  | '>' :: reversed => some reversed.reverse
  | _ => none

/-- Whether a text can name a model: a letter or underscore, then letters, numerals and
underscores. -/
def isName (text : List Char) : Bool :=
  (match text with
    | [] => false
    | first :: _ => Text.isLetter first || first = '_') &&
  text.all fun character => Text.isLetterOrNumeral character || character = '_'

/-- What is behind the head of a list is shorter than the list. -/
theorem length_afterListHead? {text rest : List Char} (found : afterListHead? text = some rest) :
    rest.length < text.length := by
  unfold afterListHead? at found
  split at found
  · split at found
    · cases found; simp; omega
    · cases found
  · cases found

/-- What is in front of the tail of a list is shorter than the list. -/
theorem length_beforeListTail? {text rest : List Char}
    (found : beforeListTail? text = some rest) : rest.length < text.length := by
  unfold beforeListTail? at found
  split at found
  · next reversed reverse_eq =>
      cases found
      have size := congrArg List.length reverse_eq
      simp at size
      simp
      omega
  · cases found

/-- Reads a type. Blanks at either end are dropped, also inside each list; a list needs its
closing `>` as the last character and an element that is not blank. -/
def parseChars (text : List Char) : Except TypeError TypeRef :=
  let trimmed := Text.trim text
  if trimmed = [] then .error .empty
  else
    match _headFound : afterListHead? trimmed with
    | some body =>
        match _tailFound : beforeListTail? body with
        | some inner =>
            if Text.allBlank inner then .error (.malformedList (String.ofList trimmed))
            else (parseChars inner).map .list
        | none => .error (.malformedList (String.ofList trimmed))
    | none =>
        match Primitive.ofKeyword? (String.ofList trimmed) with
        | some type => .ok (.primitive type)
        | none =>
            if isName trimmed then .ok (.model (String.ofList trimmed))
            else .error (.invalidName (String.ofList trimmed))
termination_by text.length
decreasing_by
  have headShorter := length_afterListHead? _headFound
  have tailShorter := length_beforeListTail? _tailFound
  have trimShorter : trimmed.length ≤ text.length := Text.length_trim_le text
  omega

/-- Reads the text of a type. -/
def parse (text : String) : Except TypeError TypeRef := parseChars text.toList

end TypeRef

end SchemaBeans
