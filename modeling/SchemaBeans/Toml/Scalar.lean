import SchemaBeans.Text.CodePoint
import SchemaBeans.Text.Pieces
import SchemaBeans.Toml.Value

/-!
# Numbers, truth values and dates of TOML

The scalars that are written without quotes.
-/

namespace SchemaBeans.Toml

/-- The digits of a text without the underscores, each of which must stand between two digits. -/
def bareDigits? (base : Nat) (text : List Char) : Option (List Char) :=
  let pieces := Text.split '_' text
  if pieces.all fun piece =>
      !piece.isEmpty && piece.all fun character => (Text.digitValue? base character).isSome then
    some pieces.flatten
  else none

/-- The number of some digits. -/
def numberOf (base : Nat) (digits : List Char) : Nat :=
  digits.foldl (fun value digit => value * base + (Text.digitValue? base digit).getD 0) 0

/-- The number of a text of digits that may hold underscores. -/
def natural? (base : Nat) (text : List Char) : Option Nat :=
  (bareDigits? base text).map (numberOf base)

/-- Whether digits start with a needless zero. -/
def hasNeedlessZero : List Char → Bool
  | '0' :: _ :: _ => true
  | _ => false

/-- The text without its sign, and whether the sign is a minus. -/
def splitSign : List Char → Bool × List Char
  | '+' :: rest => (false, rest)
  | '-' :: rest => (true, rest)
  | text => (false, text)

/-- The integer of a text. -/
def integer? (text : List Char) : Option Int :=
  match text with
  | '0' :: 'x' :: digits => (natural? 16 digits).map Int.ofNat
  | '0' :: 'o' :: digits => (natural? 8 digits).map Int.ofNat
  | '0' :: 'b' :: digits => (natural? 2 digits).map Int.ofNat
  | _ =>
      let (negative, digits) := splitSign text
      if hasNeedlessZero digits then none
      else (natural? 10 digits).map fun value => if negative then -(value : Int) else value

/-- The exponent of a float, which may be absent, from the text after its mark. -/
def exponent? : Option (List Char) → Option Int
  | none => some 0
  | some text =>
      let (negative, digits) := splitSign text
      (natural? 10 digits).map fun value => if negative then -(value : Int) else value

/-- A text before the first character that satisfies a test, and the text after that character. -/
def cut (test : Char → Bool) (text : List Char) : List Char × Option (List Char) :=
  match text.dropWhile fun character => !test character with
  | [] => (text, none)
  | _ :: rest => (text.takeWhile fun character => !test character, some rest)

/-- The float of a text: a whole part with a fraction, an exponent or both. -/
def float? (text : List Char) : Option Binary64 :=
  let (negative, body) := splitSign text
  if body = "inf".toList then some (.infinite negative)
  else if body = "nan".toList then some .notNumber
  else
    let (mantissa, exponentText) := cut (fun character => character = 'e' || character = 'E') body
    let (whole, fractionText) := cut (· = '.') mantissa
    if hasNeedlessZero whole || (exponentText.isNone && fractionText.isNone) then none
    else
      match bareDigits? 10 whole, fractionText.map (bareDigits? 10), exponent? exponentText with
      | some whole, none, some exponent => some (.ofDecimal negative (numberOf 10 whole) exponent)
      | some whole, some (some fraction), some exponent =>
          some (.ofDecimal negative (numberOf 10 (whole ++ fraction))
            (exponent - fraction.length))
      | _, _, _ => none

/-- The number of exactly `count` digits at the start of a text. -/
def fixedDigits? (count : Nat) (text : List Char) : Option (Nat × List Char) :=
  let digits := text.take count
  if digits.length = count && digits.all Char.isDigit then
    some (numberOf 10 digits, text.drop count)
  else none

/-- The text after a given character. -/
def after? (character : Char) : List Char → Option (List Char)
  | first :: rest => if first = character then some rest else none
  | [] => none

/-- Whether a year has a leap day. -/
def isLeapYear (year : Nat) : Bool := year % 4 = 0 && (year % 100 ≠ 0 || year % 400 = 0)

/-- The number of days of a month. -/
def daysIn (year month : Nat) : Nat :=
  if month = 2 then if isLeapYear year then 29 else 28
  else if month = 4 || month = 6 || month = 9 || month = 11 then 30
  else 31

/-- The text after a date. -/
def afterDate? (text : List Char) : Option (List Char) := do
  let (year, text) ← fixedDigits? 4 text
  let (month, text) ← fixedDigits? 2 (← after? '-' text)
  let (day, text) ← fixedDigits? 2 (← after? '-' text)
  if 1 ≤ month && month ≤ 12 && 1 ≤ day && day ≤ daysIn year month then some text else none

/-- The text after the fraction of a second, which may be absent. -/
def afterFraction? : List Char → Option (List Char)
  | '.' :: rest =>
      if (rest.takeWhile Char.isDigit).isEmpty then none else some (rest.dropWhile Char.isDigit)
  | text => some text

/-- The text after a time of day. The seconds may be left out. -/
def afterTime? (text : List Char) : Option (List Char) := do
  let (hour, text) ← fixedDigits? 2 text
  let (minute, text) ← fixedDigits? 2 (← after? ':' text)
  if 23 < hour || 59 < minute then none
  else
    match after? ':' text with
    | none => some text
    | some text =>
        let (second, text) ← fixedDigits? 2 text
        if 60 < second then none else afterFraction? text

/-- Whether a text is an offset from universal time. -/
def isOffset (text : List Char) : Bool :=
  match text with
  | ['Z'] => true
  | ['z'] => true
  | sign :: rest =>
      (sign = '+' || sign = '-') &&
        match fixedDigits? 2 rest with
        | some (hour, ':' :: rest) =>
            match fixedDigits? 2 rest with
            | some (minute, []) => hour ≤ 23 && minute ≤ 59
            | _ => false
        | _ => false
  | [] => false

/-- Whether a text is a time of day with nothing after it. -/
def isTime (text : List Char) : Bool := afterTime? text = some []

/-- Whether a text is what may follow the date of a date with time. -/
def isTimeWithOffset (text : List Char) : Bool :=
  match afterTime? text with
  | some [] => true
  | some rest => isOffset rest
  | none => false

/-- Whether a text is a date, a time or both. -/
def isDatetime (text : List Char) : Bool :=
  isTime text ||
    match afterDate? text with
    | some [] => true
    | some (mark :: rest) =>
        (mark = 'T' || mark = 't' || mark = ' ') && isTimeWithOffset rest
    | none => false

/-- The value of a float. What rounds to infinity without being written as infinity is beyond the
range. -/
def floatValue? (text : List Char) : Option Value :=
  match float? text with
  | some (.infinite negative) =>
      if (splitSign text).2 = "inf".toList then some (.float (.infinite negative))
      else some (.overflow negative)
  | other => other.map .float

/-- The value of a scalar without quotes. -/
def scalar? (text : List Char) : Option Value :=
  if text = "true".toList then some (.bool true)
  else if text = "false".toList then some (.bool false)
  else
    match integer? text, floatValue? text with
    | some value, _ => some (.integer value)
    | none, some value => some value
    | none, none => if isDatetime text then some (.datetime (String.ofList text)) else none

/-- Characters of scalars without quotes. -/
def isScalarCharacter (character : Char) : Bool :=
  character.isAlphanum || character = '+' || character = '-' || character = '_' ||
    character = '.' || character = ':'

/-- Reads a scalar without quotes. A single space may stand between a date and a time. -/
def readScalar (text : List Char) : Option (Value × List Char) :=
  let word := text.takeWhile isScalarCharacter
  let rest := text.dropWhile isScalarCharacter
  let (word, rest) :=
    match afterDate? word, rest with
    | some [], ' ' :: digit :: more =>
        if digit.isDigit then
          (word ++ ' ' :: (digit :: more).takeWhile isScalarCharacter,
            (digit :: more).dropWhile isScalarCharacter)
        else (word, rest)
    | _, _ => (word, rest)
  (scalar? word).map fun value => (value, rest)

end SchemaBeans.Toml
