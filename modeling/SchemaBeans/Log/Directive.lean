import SchemaBeans.Log
import SchemaBeans.Text.Blank
import SchemaBeans.Text.Bytes
import SchemaBeans.Text.Letter

/-!
# Directives of log filters

A directive is a level, or the name of a part of a program and perhaps a span or
field in brackets, with or without a level after an equals sign. Without a level
it shows everything.

Places are counted in bytes without the blanks around a directive, but its texts
are cut from the directive with them: a blank in front moves every cut.
-/

namespace SchemaBeans

/-- A field that an event must have. -/
structure FieldTest where
  name : List Char
  /-- Whether its value is tested too. -/
  valued : Bool
  deriving DecidableEq, Repr

/-- Which events a directive is about, and the greatest rank of those that it shows. -/
structure Directive where
  /-- What the name of the part that tells an event must start with. -/
  target : Option (List Char)
  /-- Whether it is only about what happens inside a span. -/
  spanned : Bool
  field : Option FieldTest
  rank : Nat
  deriving DecidableEq, Repr

namespace Directive

/-- The directive that shows the events of all parts up to a rank. -/
def ofRank (rank : Nat) : Directive := ⟨none, false, none, rank⟩

/-- The greatest rank. -/
def topRank : Nat := 5

/-- The names of the ranks. -/
def levelNames : List (String × Nat) :=
  [("off", 0), ("error", 1), ("warn", 2), ("info", 3), ("debug", 4), ("trace", topRank)]

/-- The rank of a level that is given by its number; a plus sign may stand before it. -/
def rankOfNumber? (text : List Char) : Option Nat :=
  let digits := match text with
    | '+' :: rest => rest
    | text => text
  if digits.isEmpty || !digits.all Char.isDigit then none
  else
    let value := digits.foldl (fun value digit => value * 10 + (digit.toNat - 48)) 0
    if value ≤ topRank then some value else none

/-- The rank of a level that is given by its name in any case, or by its number. -/
def rankOf? (text : List Char) : Option Nat :=
  (levelNames.lookup (String.ofList (text.map Char.toLower))).or (rankOfNumber? text)

/-- A directive with the level at its end: everything is shown where none is given. -/
def withLevel? (directive : Directive) (text : List Char) : Option Directive :=
  if text.isEmpty then some { directive with rank := topRank }
  else (rankOf? text).map fun rank => { directive with rank }

/-- The directive of a text that is one word: a level, or the name of a part. -/
def ofWord (text : List Char) : Directive :=
  match rankOf? text with
  | some rank => ofRank rank
  | none => ⟨some text, false, none, topRank⟩

/-- Reads what follows the brackets of a directive, from the place `start` on: nothing, or an equals
sign and a level. -/
def readEnd? (text : List Char) (directive : Directive) (start : Nat) :
    List Char → Option Directive
  | [] => directive.withLevel? []
  | '=' :: _ => directive.withLevel? (Text.dropBytes (start + 1) text)
  | _ => none

/-- The field test between braces, from its text. -/
def fieldTest (text : List Char) : FieldTest :=
  ⟨text.takeWhile (· ≠ '='), text.contains '='⟩

/-- Reads what follows the opening bracket of a directive, from the place `start` on: the name of a
span, or of a field between braces, or both. -/
def readBrackets? (text : List Char) (target : Option (List Char)) (start : Nat)
    (rest : List Char) : Option Directive :=
  let span := rest.takeWhile fun character => character ≠ ']' && character ≠ '\x7b'
  let stop := start + Text.byteSize span
  match rest.drop span.length with
  | ']' :: rest => readEnd? text ⟨target, true, none, 0⟩ (stop + 1) rest
  | '\x7b' :: rest =>
      let field := rest.takeWhile (· ≠ '\x7d')
      let size := Text.byteSize field
      let test := fieldTest (Text.takeBytes size (Text.dropBytes (stop + 1) text))
      match field, rest.drop field.length with
      | [], _ => none
      | _, '\x7d' :: ']' :: rest =>
          readEnd? text ⟨target, !span.isEmpty, some test, 0⟩ (stop + size + 3) rest
      | _, _ => none
  | _ => none

/-- Whether a character may start a directive that does not start with a bracket. -/
def startsName (character : Char) : Bool :=
  Text.isLetterOrNumeral character || character = '-' || character = ':' || character = '_'

/-- Reads a directive. -/
def ofText? (text : List Char) : Option Directive :=
  match Text.trim text with
  | [] => none
  | '[' :: rest => readBrackets? text none 1 rest
  | first :: rest =>
      if !startsName first then none
      else
        let name := (first :: rest).takeWhile fun character => character ≠ '=' && character ≠ '['
        let size := Text.byteSize name
        let target := some (Text.takeBytes size text)
        match (first :: rest).drop name.length with
        | [] => some (ofWord text)
        | '[' :: rest => readBrackets? text target (size + 1) rest
        | _ => withLevel? ⟨target, false, none, 0⟩ (Text.dropBytes (size + 1) text)

/-- The name of the only field that events have. -/
def messageField : List Char := "message".toList

/-- Whether a directive is about the events of a part. The name of a part also stands for the names
of what is inside it. -/
def isAbout (directive : Directive) (part : Part) : Bool :=
  match directive.target with
  | none => true
  | some target =>
      target.isPrefixOf part.name.toList || (part.name.toList ++ "::".toList).isPrefixOf target

/-- Whether a directive is about an event. Events happen in no span, and the values of their fields
are never tested. -/
def concerns (directive : Directive) (event : Event) : Bool :=
  !directive.spanned && directive.isAbout event.part &&
    match directive.field with
    | none => true
    | some test => test.name = messageField && !test.valued

/-- How much a directive asks of an event: first the size of the target counts, then whether there
is a field. -/
def specificity (directive : Directive) : Nat :=
  2 * (match directive.target with
    | none => 0
    | some target => Text.byteSize target + 1) + (if directive.field.isSome then 1 else 0)

end Directive

end SchemaBeans
