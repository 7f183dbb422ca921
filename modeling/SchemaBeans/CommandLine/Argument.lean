import SchemaBeans.Number.Word
import SchemaBeans.Text.Pieces

/-!
# Options of a command line

Options have long names and come in any order, each at most once unless it may
be repeated. The value of an option is the next argument, or follows the name
after an equals sign.
-/

namespace SchemaBeans.CommandLine

/-- What an option takes. -/
inductive OptionKind where
  | flag
  | text
  /-- A text that may not be empty. -/
  | path
  | number
  /-- A text that may be given several times. -/
  | texts
  deriving DecidableEq, Repr

/-- An option that a command knows. -/
structure OptionSpec where
  name : String
  kind : OptionKind
  deriving DecidableEq, Repr

/-- The options that were given with their values, the latest first. -/
abbrev Given := List (String × String)

/-- What the arguments up to the first that is no option amount to. -/
inductive Reading where
  /-- They cannot be used. -/
  | refused
  | help
  | version
  | options (given : Given) (rest : List String)
  deriving DecidableEq, Repr

/-- The number of a text of decimal digits, with or without a plus sign. -/
def number? (text : String) : Option Nat :=
  let digits := match text.toList with
    | '+' :: digits => digits
    | digits => digits
  if digits.isEmpty || !digits.all Char.isDigit then none
  else
    let value := digits.foldl (fun value digit => value * 10 + (digit.toNat - 48)) 0
    if value < Word.limit then some value else none

/-- Whether a value can be given to an option. -/
def OptionKind.accepts (kind : OptionKind) (value : String) : Bool :=
  match kind with
  | .path => !value.isEmpty
  | .number => (number? value).isSome
  | _ => true

/-- Whether an argument looks like an option, and so cannot be a value of its own. -/
def looksLikeOption (argument : String) : Bool :=
  argument.toList.head? = some '-' && argument ≠ "-"

/-- The options with one more, unless its value is refused or it was given before. -/
def withOption? (given : Given) (spec : OptionSpec) (value : String) : Option Given :=
  if !spec.kind.accepts value then none
  else if spec.kind ≠ .texts && (given.lookup spec.name).isSome then none
  else some ((spec.name, value) :: given)

/-- The name of a long option and the value after its equals sign. -/
def splitLong (body : List Char) : String × Option String :=
  match body.dropWhile (· ≠ '=') with
  | _ :: value => (String.ofList (body.takeWhile (· ≠ '=')), some (String.ofList value))
  | [] => (String.ofList body, none)

/-- Reads arguments up to the first that is no option. The version can be asked for where
`versioned` says so. -/
def readOptions (specs : List OptionSpec) (versioned : Bool) (given : Given) :
    List String → Reading
  | [] => .options given []
  | argument :: rest =>
      match argument.toList with
      | ['-', '-'] => if rest.isEmpty then .options given [] else .refused
      | '-' :: '-' :: body =>
          match splitLong body, specs.find? fun spec => spec.name = (splitLong body).1 with
          | ("help", none), _ => .help
          | ("version", none), none => if versioned then .version else .refused
          | (_, _), none => .refused
          | (_, some value), some spec =>
              if spec.kind = .flag then .refused
              else
                match withOption? given spec value with
                | some given => readOptions specs versioned given rest
                | none => .refused
          | (_, none), some spec =>
              if spec.kind = .flag then
                match withOption? given spec "" with
                | some given => readOptions specs versioned given rest
                | none => .refused
              else
                match rest with
                | [] => .refused
                | value :: rest =>
                    if looksLikeOption value then .refused
                    else
                      match withOption? given spec value with
                      | some given => readOptions specs versioned given rest
                      | none => .refused
      | '-' :: 'h' :: _ => .help
      | '-' :: 'V' :: _ => if versioned then .version else .refused
      | '-' :: _ :: _ => .refused
      | _ => .options given (argument :: rest)

namespace Given

/-- Whether an option was given. -/
def has (given : Given) (name : String) : Bool := (given.lookup name).isSome

/-- The values of an option that may be repeated, in their order. -/
def all (given : Given) (name : String) : List String :=
  (given.filter fun entry => entry.1 = name).reverse.map Prod.snd

end Given

end SchemaBeans.CommandLine
