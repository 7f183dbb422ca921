/-!
# Binary floating-point numbers of 64 bits

A finite number is a significand times a power of two, kept in its one
normalized form. Reading a decimal rounds to the nearest number, a tie to the
even significand; printing gives the fewest digits that read back as the same
number.
-/

namespace SchemaBeans

/-- A floating-point number of 64 bits. A finite one has a significand below 2^53 and an exponent
from -1074 on; the significand is at least 2^52 unless the exponent is the least one. -/
inductive Binary64 where
  | notNumber
  | infinite (negative : Bool)
  | finite (negative : Bool) (significand : Nat) (exponent : Int)
  deriving DecidableEq, Repr

namespace Binary64

/-- The least exponent. -/
def leastExponent : Int := -1074

/-- The greatest exponent. -/
def greatestExponent : Int := 971

/-- A quotient rounded to the nearest integer, a tie to the even one. -/
def roundQuotient (numerator denominator : Nat) : Nat :=
  let quotient := numerator / denominator
  let twice := 2 * (numerator % denominator)
  if twice < denominator || (twice = denominator && quotient % 2 = 0) then quotient
  else quotient + 1

/-- A power of two. -/
def twoTo (count : Nat) : Nat := Nat.pow 2 count

/-- A power of ten. -/
def tenTo (count : Nat) : Nat := Nat.pow 10 count

/-- A quotient scaled by a power of two: numerator and denominator of it divided by 2^exponent. -/
def scaleDown (numerator denominator : Nat) (exponent : Int) : Nat × Nat :=
  match exponent with
  | .ofNat count => (numerator, denominator * twoTo count)
  | .negSucc count => (numerator * twoTo (count + 1), denominator)

/-- The exponent of the number nearest to a positive quotient, before rounding. -/
def exponentOf (numerator denominator : Nat) : Int :=
  let estimate : Int := (Nat.log2 numerator : Int) - (Nat.log2 denominator : Int) - 53
  let (scaled, unit) := scaleDown numerator denominator estimate
  max leastExponent (if scaled / unit < twoTo 53 then estimate else estimate + 1)

/-- The number nearest to a positive quotient. -/
def ofQuotient (negative : Bool) (numerator denominator : Nat) : Binary64 :=
  let exponent := exponentOf numerator denominator
  let (scaled, unit) := scaleDown numerator denominator exponent
  let significand := roundQuotient scaled unit
  let (significand, exponent) :=
    if significand = twoTo 53 then (twoTo 52, exponent + 1) else (significand, exponent)
  if greatestExponent < exponent then .infinite negative
  else .finite negative significand exponent

/-- The number of decimal digits of a number. -/
def decimalSize (value : Nat) : Nat := (Nat.toDigits 10 value).length

/-- The number nearest to `digits` times ten to the power of `exponent`. Powers far outside the
range are not computed. -/
def ofDecimal (negative : Bool) (digits : Nat) (exponent : Int) : Binary64 :=
  if digits = 0 then .finite negative 0 leastExponent
  else
    let top : Int := decimalSize digits + exponent
    if 310 < top then .infinite negative
    else if top < -330 then .finite negative 0 leastExponent
    else
      match exponent with
      | .ofNat count => ofQuotient negative (digits * tenTo count) 1
      | .negSucc count => ofQuotient negative digits (tenTo (count + 1))

/-- Equality of numbers: the two zeros are equal, and so are all values that are no numbers. -/
def same : Binary64 → Binary64 → Bool
  | finite _ 0 _, finite _ 0 _ => true
  | left, right => left = right

/-- A positive decimal: digits times a power of ten. -/
structure Decimal where
  digits : Nat
  exponent : Int
  deriving DecidableEq, Repr

/-- The same decimal without zeros at the end of its digits. -/
def Decimal.trimmed (decimal : Decimal) : Decimal :=
  if 0 < decimal.digits && decimal.digits % 10 = 0 then
    trimmed ⟨decimal.digits / 10, decimal.exponent + 1⟩
  else decimal
termination_by decimal.digits
decreasing_by
  next trailing =>
    simp at trailing
    omega

/-- The positive reals that round to a number, as multiples of 2^(exponent - 2): the lower end, the
number itself and the upper end. -/
def interval (significand : Nat) (exponent : Int) : Nat × Nat × Nat :=
  let below :=
    if significand = twoTo 52 && leastExponent < exponent then 4 * significand - 1
    else 4 * significand - 2
  (below, 4 * significand, 4 * significand + 2)

/-- Compares `left * 2^twos` with `right * 10^tens`. -/
def comparePowers (left : Nat) (twos : Int) (right : Nat) (tens : Int) : Ordering :=
  Ord.compare (left * twoTo twos.toNat * tenTo (-tens).toNat)
    (right * tenTo tens.toNat * twoTo (-twos).toNat)

/-- Whether a decimal reads as the number with the given significand and exponent. -/
def readsBack (significand : Nat) (exponent : Int) (decimal : Decimal) : Bool :=
  let (below, _, above) := interval significand exponent
  let low := comparePowers below (exponent - 2) decimal.digits decimal.exponent
  let high := comparePowers above (exponent - 2) decimal.digits decimal.exponent
  if significand % 2 = 0 then low.isLE && high.isGE else low.isLT && high.isGT

/-- The whole multiples of ten to the power of `tens` next to `significand * 2^exponent`, from
below and from above, the nearer one first; of two equally near ones the greater comes first. -/
def neighbours (significand : Nat) (exponent tens : Int) : List Decimal :=
  let numerator := significand * twoTo exponent.toNat * tenTo (-tens).toNat
  let denominator := twoTo (-exponent).toNat * tenTo tens.toNat
  let lower := numerator / denominator
  let ordered :=
    if 2 * (numerator % denominator) < denominator then [lower, lower + 1] else [lower + 1, lower]
  ordered.map fun digits => ⟨digits, tens⟩

/-- The number of decimal digits before the point of `significand * 2^exponent`, negative or zero
for a number below one: the least power of ten that is greater than the number. -/
def magnitude (significand : Nat) (exponent : Int) : Int :=
  match exponent with
  | .ofNat count => decimalSize (significand * twoTo count)
  | .negSucc count =>
      let whole := significand / twoTo (count + 1)
      if 0 < whole then decimalSize whole
      else
        -- the reciprocal, rounded down, has as many digits as zeros follow the point, and one more
        -- unless the number is a power of ten
        let size := decimalSize (twoTo (count + 1) / significand)
        let power := tenTo (size - 1) * significand = twoTo (count + 1)
        if power then 2 - (size : Int) else 1 - (size : Int)

/-- The shortest decimal that reads back, looking for one with `count` digits and then more. -/
def shortestFrom (significand : Nat) (exponent size : Int) : Nat → Nat → Decimal
  | 0, count => (neighbours significand exponent (size - count)).headD ⟨0, 0⟩
  | fuel + 1, count =>
      match (neighbours significand exponent (size - count)).find?
          (readsBack significand exponent) with
      | some decimal => decimal
      | none => shortestFrom significand exponent size fuel (count + 1)

/-- The shortest decimal that reads back; seventeen digits always suffice. -/
def shortest (significand : Nat) (exponent : Int) : Decimal :=
  (shortestFrom significand exponent (magnitude significand exponent) 16 1).trimmed

/-- A decimal in positional notation, with at least one digit on either side of the point. -/
def positional (decimal : Decimal) : List Char :=
  let digits := Nat.toDigits 10 decimal.digits
  match decimal.exponent with
  | .ofNat count => digits ++ List.replicate count '0' ++ ['.', '0']
  | .negSucc count =>
      let places := count + 1
      let padded := List.replicate (places + 1 - digits.length) '0' ++ digits
      padded.take (padded.length - places) ++ '.' :: padded.drop (padded.length - places)

/-- The text of a number. -/
def text : Binary64 → String
  | notNumber => "NaN"
  | infinite false => "inf"
  | infinite true => "-inf"
  | finite negative significand exponent =>
      let digits :=
        if significand = 0 then ['0', '.', '0']
        else positional (shortest significand exponent)
      String.ofList (if negative then '-' :: digits else digits)

end Binary64

end SchemaBeans
