import SchemaBeans.Keyed
import SchemaBeans.Toml.Value

/-!
# Building tables

The lines of a document add to its tables. A table is announced once at most,
a dotted key adds only to tables that dotted keys made, and what is written
between brackets is complete.
-/

namespace SchemaBeans.Toml

namespace Entries

/-- A table with its entries replaced where a change succeeds. -/
def inTable (change : Origin → Entries → Option Entries) : Value → Option Value
  | .table entries origin => (change origin entries).map fun entries => .table entries origin
  | _ => none

/-- The table that a path goes on in: a table, or the last table of an array that headers made. -/
def inContainer (change : Origin → Entries → Option Entries) : Value → Option Value
  | .table entries origin =>
      if origin = .inline then none else inTable change (.table entries origin)
  | .array items true =>
      match items.reverse with
      | last :: before =>
          (inTable change last).map fun last => .array (before.reverse ++ [last]) true
      | [] => none
  | _ => none

/-- Changes the table at the end of a path of headers; tables that are missing on the way are
made. -/
def atHeader (change : Origin → Entries → Option Entries) :
    List String → Origin → Entries → Option Entries
  | [], origin, entries => change origin entries
  | key :: path, _, entries =>
      match entries.lookup key with
      | none => (atHeader change path .implicit []).map fun inner =>
          Keyed.set key (.table inner .implicit) entries
      | some value =>
          (inContainer (atHeader change path) value).map fun value =>
            Keyed.set key value entries

/-- Changes the table at the end of a dotted key. Tables that are missing on the way are made, and
a table with a header of its own is not entered. -/
def atDotted (change : Origin → Entries → Option Entries) :
    List String → Origin → Entries → Option Entries
  | [], origin, entries => change origin entries
  | key :: path, _, entries =>
      match entries.lookup key with
      | none => (atDotted change path .dotted []).map fun inner =>
          Keyed.set key (.table inner .dotted) entries
      | some (.table _ .header) => none
      | some value =>
          (inContainer (atDotted change path) value).map fun value =>
            Keyed.set key value entries

/-- Announces a table. One that was only passed through so far may be announced still. -/
def announce (key : String) (entries : Entries) : Option Entries :=
  match entries.lookup key with
  | none => some (Keyed.set key (.table [] .header) entries)
  | some (.table inner .implicit) => some (Keyed.set key (.table inner .header) entries)
  | some _ => none

/-- Announces one more table of an array. -/
def announceItem (key : String) (entries : Entries) : Option Entries :=
  match entries.lookup key with
  | none => some (Keyed.set key (.array [.table [] .header] true) entries)
  | some (.array items true) =>
      some (Keyed.set key (.array (items ++ [.table [] .header]) true) entries)
  | some _ => none

/-- Adds an entry to a table; `dotted` tells whether a dotted key leads there. A dotted key adds to
tables that dotted keys made, and a plain one to all others. -/
def add (dotted : Bool) (key : String) (value : Value) (origin : Origin) (entries : Entries) :
    Option Entries :=
  if decide (origin = .dotted) ≠ dotted then none
  else
    match entries.lookup key with
    | none => some (entries ++ [(key, value)])
    | some _ => none

/-- Adds the value of a key with its dots to a table. -/
def addPath (path : List String) (value : Value) (origin : Origin) (entries : Entries) :
    Option Entries :=
  match path.reverse with
  | [] => none
  | key :: before => atDotted (add (!before.isEmpty) key value) before.reverse origin entries

end Entries

end SchemaBeans.Toml
