import SchemaBeans.Number.Binary64
import SchemaBeans.Number.Word
import SchemaBeans.Text.CodePoint
import SchemaBeans.Text.Quoted

/-!
# Values of YAML

What a document means: null, truth values, numbers, text, sequences, mappings
and values under a local tag. `Value.ofPlain?` says what an unquoted scalar
means.
-/

namespace SchemaBeans.Yaml

/-- A value. -/
inductive Value where
  | null
  | bool (value : Bool)
  | int (value : Int)
  | float (value : Binary64)
  | string (text : String)
  | sequence (items : List Value)
  | mapping (entries : List (Value × Value))
  | tagged (tag : String) (value : Value)
  deriving Repr

namespace Value

/-- The value under all tags. -/
def untagged : Value → Value
  | tagged _ value => value.untagged
  | value => value

/-- The kind of a value, as it is named to people. -/
def kind : Value → String
  | null => "null"
  | bool _ => "a boolean"
  | int _ => "a number"
  | float _ => "a number"
  | string _ => "a string"
  | sequence _ => "a sequence"
  | mapping _ => "a mapping"
  | tagged _ _ => "a tagged value"

/-- A value as it is shown where another type was expected. -/
def shown : Value → String
  | null => "unit value"
  | bool true => "boolean `true`"
  | bool false => "boolean `false`"
  | int value => "integer `" ++ toString value ++ "`"
  | float value => "floating point `" ++ value.text ++ "`"
  | string text => "string " ++ Text.quoted text
  | sequence _ => "sequence"
  | mapping _ => "map"
  | tagged _ _ => "enum"

/-- A tag without one mark in front, unless it is nothing but the mark. -/
def bareTag (tag : String) : List Char :=
  match tag.toList with
  | '!' :: second :: rest => second :: rest
  | characters => characters

mutual

/-- Equality of values. The order of a mapping's entries does not matter. -/
def same : Value → Value → Bool
  | null, null => true
  | bool left, bool right => left = right
  | int left, int right => left = right
  | float left, float right => left.same right
  | string left, string right => left = right
  | sequence left, sequence right => sameItems left right
  | mapping left, mapping right => left.length = right.length && sameEntries left right
  | tagged leftTag left, tagged rightTag right =>
      bareTag leftTag = bareTag rightTag && same left right
  | _, _ => false

/-- Equality of the items of two sequences. -/
def sameItems : List Value → List Value → Bool
  | [], [] => true
  | left :: lefts, right :: rights => same left right && sameItems lefts rights
  | _, _ => false

/-- Whether every entry of the first list is one of the second. -/
def sameEntries : List (Value × Value) → List (Value × Value) → Bool
  | [], _ => true
  | (key, value) :: entries, others =>
      others.any (fun other => same key other.1 && same value other.2) &&
        sameEntries entries others

end

/-- Whether two entries of a mapping have the same key. -/
def hasRepeatedKey : List (Value × Value) → Bool
  | [] => false
  | (key, _) :: entries => entries.any (fun other => key.same other.1) || hasRepeatedKey entries

/-- Whether a scalar's text means null. The empty text does so only without a tag. -/
def isNullText (text : String) : Bool :=
  text = "~" || text = "null" || text = "Null" || text = "NULL"

/-- The truth value of a scalar's text. -/
def boolOf? (text : String) : Option Bool :=
  if text = "true" || text = "True" || text = "TRUE" then some true
  else if text = "false" || text = "False" || text = "FALSE" then some false
  else none

/-- The number of a text of digits, at least one. -/
def natural? (base : Nat) (text : List Char) : Option Nat :=
  if text.isEmpty then none
  else
    text.foldl (fun value? character =>
      match value?, Text.digitValue? base character with
      | some value, some digit => some (value * base + digit)
      | _, _ => none) (some 0)

/-- The number of a text without a sign: in base ten, or after a mark of its base. -/
def magnitude? : List Char → Option Nat
  | '0' :: 'x' :: digits => natural? 16 digits
  | '0' :: 'o' :: digits => natural? 8 digits
  | '0' :: 'b' :: digits => natural? 2 digits
  | digits => natural? 10 digits

/-- The text without one sign at its start. -/
def withoutSign : List Char → List Char
  | '+' :: rest => rest
  | '-' :: rest => rest
  | text => text

/-- Whether a text is all digits with a needless zero in front; such a text is no number. -/
def hasNeedlessZero (text : List Char) : Bool :=
  match withoutSign text with
  | '0' :: second :: rest => (second :: rest).all Char.isDigit
  | _ => false

/-- What an integer's text means: a number, or a number too large for any value. Beyond 128 bits a
text is not read as an integer at all. -/
inductive IntegerText where
  | number (value : Int)
  | tooLarge
  | other
  deriving DecidableEq, Repr

/-- Sorts an integer by its size. -/
def integerOfSize (value : Int) : IntegerText :=
  if Word.fits value then .number value
  else if Word.fitsDouble value then .tooLarge
  else .other

/-- Reads the text of an integer. -/
def integerOf (text : List Char) : IntegerText :=
  if hasNeedlessZero text then .other
  else
    match text with
    | '-' :: rest =>
        match magnitude? rest with
        | some value => integerOfSize (-(value : Int))
        | none => .other
    | '+' :: rest =>
        match magnitude? rest with
        | some value => integerOfSize value
        | none => .other
    | _ =>
        match magnitude? text with
        | some value => integerOfSize value
        | none => .other

/-- The digits around the point of a decimal, and the text after them. -/
def decimalDigits (text : List Char) : List Char × List Char × List Char :=
  let whole := text.takeWhile Char.isDigit
  match text.dropWhile Char.isDigit with
  | '.' :: rest => (whole, rest.takeWhile Char.isDigit, rest.dropWhile Char.isDigit)
  | rest => (whole, [], rest)

/-- The exponent at the end of a decimal: none, or a whole number after `e`. -/
def exponentOf? : List Char → Option Int
  | [] => some 0
  | mark :: rest =>
      if mark = 'e' || mark = 'E' then
        match rest with
        | '-' :: digits => (natural? 10 digits).map fun value => -(value : Int)
        | '+' :: digits => (natural? 10 digits).map fun value => (value : Int)
        | digits => (natural? 10 digits).map fun value => (value : Int)
      else none

/-- The number nearest to a decimal without a sign. -/
def decimalOf? (negative : Bool) (text : List Char) : Option Binary64 :=
  let (whole, fraction, rest) := decimalDigits text
  if whole.isEmpty && fraction.isEmpty then none
  else
    match natural? 10 (whole ++ fraction), exponentOf? rest with
    | some digits, some exponent =>
        some (.ofDecimal negative digits (exponent - fraction.length))
    | _, _ => none

/-- Whether a text is infinity without a sign. -/
def isInfinityText (text : List Char) : Bool :=
  text = ".inf".toList || text = ".Inf".toList || text = ".INF".toList

/-- Whether a text is the value that is no number. -/
def isNotNumberText (text : List Char) : Bool :=
  text = ".nan".toList || text = ".NaN".toList || text = ".NAN".toList

/-- The floating-point number of a text. A decimal beyond the range is none. -/
def floatOf? (text : List Char) : Option Binary64 :=
  if isNotNumberText text then some .notNumber
  else
    let negative := text.head? = some '-'
    let body := withoutSign text
    if isInfinityText body then some (.infinite negative)
    else
      match decimalOf? negative body with
      | some (.finite negative significand exponent) =>
          some (.finite negative significand exponent)
      | _ => none

/-- The value of an unquoted scalar without a tag. Integers that do not fit have none. -/
def ofPlain? (text : String) : Option Value :=
  if text.isEmpty || isNullText text then some null
  else
    match boolOf? text, integerOf text.toList with
    | some value, _ => some (bool value)
    | none, .number value => some (int value)
    | none, .tooLarge => none
    | none, .other =>
        if hasNeedlessZero text.toList then some (string text)
        else some (((floatOf? text.toList).map float).getD (string text))

end Value

end SchemaBeans.Yaml
