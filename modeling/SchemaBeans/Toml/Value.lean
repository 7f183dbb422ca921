import SchemaBeans.Number.Binary64
import SchemaBeans.Number.Word
import SchemaBeans.Sorted
import SchemaBeans.Text.Quoted

/-!
# Values of TOML

A document is a table. Tables remember how they were made, since that decides
whether a later line may add to them.
-/

namespace SchemaBeans.Toml

/-- How a table was made. -/
inductive Origin where
  /-- Written between braces. -/
  | inline
  /-- Announced by a header of its own. -/
  | header
  /-- Passed through by a header of a table inside it. -/
  | implicit
  /-- Passed through by a dotted key. -/
  | dotted
  deriving DecidableEq, Repr

/-- A value. -/
inductive Value where
  | string (text : String)
  | integer (value : Int)
  | float (value : Binary64)
  /-- A decimal beyond the range of floats. -/
  | overflow (negative : Bool)
  | bool (value : Bool)
  | datetime (text : String)
  /-- An array; `ofTables` tells whether headers made it. -/
  | array (items : List Value) (ofTables : Bool)
  | table (entries : List (String × Value)) (origin : Origin)
  deriving Repr

/-- The entries of a table in the order in which they were made. -/
abbrev Entries := List (String × Value)

namespace Value

/-- A value as it is shown where another type was expected. -/
def shown : Value → String
  | string text => "string " ++ Text.quoted text
  | integer value => "integer `" ++ toString value ++ "`"
  | float value => "floating point `" ++ value.text ++ "`"
  | overflow negative => "floating point `" ++ (Binary64.infinite negative).text ++ "`"
  | bool true => "boolean `true`"
  | bool false => "boolean `false`"
  | datetime _ => "map"
  | array _ _ => "sequence"
  | table _ _ => "map"

mutual

/-- Whether every number of a value has its range: 64 bits with a sign for integers, and the finite
floats for decimals. -/
def inRange : Value → Bool
  | integer value => Word.fitsSigned value
  | overflow _ => false
  | array items _ => itemsInRange items
  | table entries _ => entriesInRange entries
  | _ => true

/-- Whether the numbers of all items of an array have their ranges. -/
def itemsInRange : List Value → Bool
  | [] => true
  | item :: items => inRange item && itemsInRange items

/-- Whether the numbers of all entries of a table have their ranges. -/
def entriesInRange : List (String × Value) → Bool
  | [] => true
  | (_, value) :: entries => inRange value && entriesInRange entries

end

end Value

/-- The entries of a table in the order of their keys. -/
def Entries.sorted (entries : Entries) : Entries :=
  Sorted.ofList (fun left right => Ord.compare left.1 right.1) entries

end SchemaBeans.Toml
