import SchemaBeans.Naming

/-!
# Boilerplate methods

A boilerplate method takes nothing from a model: it is the same text in every
type. Methods are enabled by their configured names.
-/

namespace SchemaBeans

/-- The known boilerplate methods. -/
inductive Boilerplate where
  | sumOfTen
  deriving DecidableEq, Repr

namespace Boilerplate

/-- All boilerplate methods. -/
def all : List Boilerplate := [sumOfTen]

/-- The name under which a method is configured. -/
def name : Boilerplate → String
  | sumOfTen => "sum_of_ten"

/-- The name of the generated method. -/
def methodName (method : Boilerplate) : String := Naming.camelOfWords method.name

/-- The lines of a method inside a type. -/
def lines : Boilerplate → List String
  | sumOfTen =>
      ["    public int " ++ sumOfTen.methodName ++ "() \x7b",
       "        int sum = 0;",
       "        for (int i = 0; i <= 10; i++) \x7b",
       "            sum += i;",
       "        \x7d",
       "        return sum;",
       "    \x7d"]

/-- The text of a method, with a line feed after each line. -/
def render (method : Boilerplate) : String := String.join (method.lines.map (· ++ "\n"))

/-- The method of a configured name. -/
def ofName? (text : String) : Option Boilerplate := all.find? fun method => method.name = text

/-- The methods of a list of names, each once, in the order of their first names. The first name
that names no method is the error. -/
def select : List String → Except String (List Boilerplate)
  | [] => .ok []
  | text :: texts =>
      match ofName? text with
      | none => .error text
      | some method => (select texts).map fun methods => method :: methods.filter (· ≠ method)

/-- What is said of a name that names no method. -/
def unknownMessage (text : String) : String :=
  "unknown boilerplate method `" ++ text ++ "` (available: " ++
    Text.joinStrings ", " (all.map name) ++ ")"

end Boilerplate

end SchemaBeans
