/-!
# Log events

What happens in a run is told as events of five levels by the parts of the
program. An event is shown as one line with its level in front.
-/

namespace SchemaBeans

/-- How grave an event is. -/
inductive Level where
  | error
  | warn
  | info
  | debug
  deriving DecidableEq, Repr

namespace Level

/-- The name of a level, in five places. -/
def label : Level → String
  | error => "ERROR"
  | warn => " WARN"
  | info => " INFO"
  | debug => "DEBUG"

/-- The place of a level: the greater, the more is shown. -/
def rank : Level → Nat
  | error => 1
  | warn => 2
  | info => 3
  | debug => 4

end Level

/-- The parts of the program that tell events. -/
inductive Part where
  /-- Finding and reading schema documents. -/
  | intake
  /-- The way from models to sources. -/
  | generation
  /-- Steps that matter only to those who look for faults. -/
  | inspection
  deriving DecidableEq, Repr

/-- The name under which a filter knows a part. -/
def Part.name : Part → String
  | intake => "adapters"
  | generation => "pipeline"
  | inspection => "modelgen_logging"

/-- One event. -/
structure Event where
  part : Part
  level : Level
  text : String
  deriving DecidableEq, Repr

namespace Event

/-- A hexadecimal digit in lower case. -/
def hexDigit (value : Nat) : Char := Nat.digitChar value

/-- A character of an event as it is shown: controls that a terminal would act on are escaped. -/
def shownChar (character : Char) : String :=
  let code := character.toNat
  let low := [hexDigit (code / 16), hexDigit (code % 16)]
  if code = 0x07 || code = 0x08 || code = 0x0C || code = 0x1B || code = 0x7F then
    String.ofList ('\\' :: 'x' :: low)
  else if 0x80 ≤ code && code < 0xA0 then
    String.ofList (['\\', 'u', '\x7b'] ++ low ++ ['\x7d'])
  else String.singleton character

/-- The line of an event. -/
def line (event : Event) : String :=
  event.level.label ++ " " ++ String.join (event.text.toList.map shownChar) ++ "\n"

/-- An event about a step inside the program, for those who look for its faults. -/
def trace (topic text : String) : Event := ⟨.inspection, .debug, "[" ++ topic ++ "] " ++ text⟩

end Event

end SchemaBeans
