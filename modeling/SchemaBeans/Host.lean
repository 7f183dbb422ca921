import SchemaBeans.FileSystem
import SchemaBeans.Log

/-!
# What a run works on

A run reads and changes files, writes to standard output, tells events, registers
the directory of its sources with the build tool, and looks whether it was
cancelled.
-/

namespace SchemaBeans

/-- The surroundings of a run; all lists have the latest first. -/
structure Host where
  files : FileSystem
  /-- Whether cancellation was requested. -/
  cancelled : Bool
  /-- Texts on standard output. -/
  output : List String
  log : List Event
  /-- Directories of sources that were registered. -/
  registered : List Path
  deriving DecidableEq, Repr

namespace Host

/-- The surroundings of a run before it has done anything. -/
def ofFiles (files : FileSystem) : Host := ⟨files, false, [], [], []⟩

/-- The host after an event. -/
def tell (host : Host) (event : Event) : Host := { host with log := event :: host.log }

/-- The host after some events, the earliest first. -/
def tellAll (host : Host) (events : List Event) : Host :=
  { host with log := events.reverse ++ host.log }

/-- The host after a text on standard output. -/
def print (host : Host) (text : String) : Host := { host with output := text :: host.output }

/-- The host with other files. -/
def withFiles (host : Host) (files : FileSystem) : Host := { host with files }

/-- The host after a request for cancellation. -/
def cancel (host : Host) : Host := { host with cancelled := true }

/-- All of standard output. -/
def outputText (host : Host) : String := String.join host.output.reverse

/-- The events in the order in which they happened. -/
def events (host : Host) : List Event := host.log.reverse

end Host

end SchemaBeans
