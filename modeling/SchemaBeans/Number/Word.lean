/-!
# Integers of limited size

The ranges of integers that documents can hold, signed or unsigned, in 64 and in
128 bits.
-/

namespace SchemaBeans.Word

/-- The least number that is beyond 64 bits without a sign. -/
def limit : Nat := 18446744073709551616

/-- Whether an integer fits 64 bits, with or without a sign. -/
def fits (value : Int) : Bool := -9223372036854775808 ≤ value && value < 18446744073709551616

/-- Whether an integer fits 64 bits with a sign. -/
def fitsSigned (value : Int) : Bool :=
  -9223372036854775808 ≤ value && value < 9223372036854775808

/-- Whether an integer fits 128 bits, with or without a sign. -/
def fitsDouble (value : Int) : Bool :=
  -170141183460469231731687303715884105728 ≤ value &&
    value < 340282366920938463463374607431768211456

end SchemaBeans.Word
