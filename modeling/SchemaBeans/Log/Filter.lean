import SchemaBeans.Log.Directive
import SchemaBeans.Text.Pieces

/-!
# Which events are shown

A filter is a list of directives with commas between them. Of the directives
about an event the most specific one decides, and of several such the last.
-/

namespace SchemaBeans

/-- What decides which events are shown: some directives in the order in which they are given. -/
structure Filter where
  directives : List Directive
  deriving DecidableEq, Repr

namespace Filter

/-- The filter that shows the events up to a level. -/
def ofLevel (level : Level) : Filter := ⟨[.ofRank level.rank]⟩

/-- The filter that holds where no filter can be used. -/
def default : Filter := ofLevel .info

/-- The filter without directives. -/
def empty : Filter := ofLevel .error

/-- Reads a filter. Directives may be left out between commas; where all are, errors are shown. A
filter with a directive that cannot be read cannot be used at all. -/
def ofText? (text : String) : Option Filter :=
  match (Text.split ',' text.toList).filter (!·.isEmpty) with
  | [] => some empty
  | directives => (directives.mapM Directive.ofText?).map Filter.mk

/-- The filter of a program: what the environment says, else what is configured, else the
default. -/
def resolve (environment : Option String) (configured : String) : Filter :=
  ((environment.bind ofText?).or (ofText? configured)).getD default

/-- Of two directives about an event, the one that decides. -/
def deciding (earlier : Option Directive) (later : Directive) : Option Directive :=
  match earlier with
  | none => some later
  | some earlier => if later.specificity < earlier.specificity then some earlier else some later

/-- The directive that decides about an event. -/
def deciding? (filter : Filter) (event : Event) : Option Directive :=
  (filter.directives.filter fun directive => directive.concerns event).foldl deciding none

/-- Whether an event is shown. -/
def shows (filter : Filter) (event : Event) : Bool :=
  match filter.deciding? event with
  | some directive => event.level.rank ≤ directive.rank
  | none => false

/-- The lines of the events that are shown. -/
def lines (filter : Filter) (events : List Event) : String :=
  String.join ((events.filter filter.shows).map Event.line)

end Filter

end SchemaBeans
