import SchemaBeans.FileSystem.Change
import SchemaBeans.Model

/-!
# The files of the machine

The outer layer works on a snapshot: the files that a command may look at are
read before it runs, and what it changed is written back after it. Links are kept
with the real paths that they lead to.
-/

namespace SchemaBeans.Machine

/-- The files that were read so far. -/
structure Snapshot where
  files : FileSystem
  /-- The directories that were read with all that is below them. -/
  listed : List Location

/-- The text of the path to a location. -/
def pathText (location : Location) : String := "/" ++ Text.joinStrings "/" location

/-- The pieces of the path to a location. -/
def locationOf (text : String) : Location :=
  (Text.splitString '/' text).filter fun piece => !piece.isEmpty && piece ≠ "."

/-- The snapshot with an entry. -/
def Snapshot.with (snapshot : Snapshot) (location : Location) (entry : Entry) : Snapshot :=
  { snapshot with files := snapshot.files.put location entry }

/-- Whether the tree of a directory is read together with what a file of the given name holds. -/
def isDocument (name : String) : Bool := hasExtension ⟨name⟩ ("toml" :: schemaExtensions)

/-- What a file holds. -/
def contentOf (location : Location) : IO Content := do
  let bytes ← IO.FS.readBinFile (pathText location)
  match String.fromUTF8? bytes with
  | some text => return .text text
  | none => return .bytes bytes.toList

/-- Where a link leads: to a real path, to nothing, or in a circle back to itself. -/
def targetOf (location : Location) : IO Path := do
  try
    return ⟨(← IO.FS.realPath (pathText location)).toString⟩
  catch
    | .noFileOrDirectory .. => return ⟨""⟩
    | _ => return ⟨pathText location⟩

/-- The kind of what a directory holds under a name. -/
def kindOf? (directory : Location) (name : String) : IO (Option IO.FS.FileType) := do
  try
    let entry : IO.FS.DirEntry := ⟨pathText directory, name⟩
    return some (← entry.path.symlinkMetadata).type
  catch _ => return none

/-- The names in a directory. -/
def namesIn (directory : Location) : IO (List String) := do
  try
    let real ← IO.FS.realPath (pathText directory)
    return (← real.readDir).toList.map IO.FS.DirEntry.fileName
  catch _ => return []

/-- Reads what stands on the way of a path, from a real directory on, and what it leads to. -/
partial def addPath (snapshot : Snapshot) (here : Location) : List String → IO Snapshot
  | [] => return snapshot
  | ".." :: rest => addPath snapshot here.dropLast rest
  | name :: rest => do
      let location := here ++ [name]
      match ← kindOf? here name with
      | none => return snapshot
      | some .dir => addPath (snapshot.with location .directory) location rest
      | some .symlink => do
          let target ← targetOf location
          let snapshot := snapshot.with location (.link target)
          let real := locationOf target.text
          if target.text.isEmpty || real = location then return snapshot
          addPath snapshot [] (real ++ rest)
      | some .file => return snapshot.with location (.file (← contentOf location))
      | some .other => return snapshot.with location (.file (.bytes []))

/-- Reads everything below a real directory, and below the directories that links there lead to. -/
partial def addTree (snapshot : Snapshot) (directory : Location) : IO Snapshot := do
  if snapshot.listed.contains directory then return snapshot
  let mut snapshot := { snapshot with listed := directory :: snapshot.listed }
  for name in ← namesIn directory do
    let location := directory ++ [name]
    match ← kindOf? directory name with
    | some .dir => snapshot ← addTree (snapshot.with location .directory) location
    | some .symlink =>
        snapshot ← addPath snapshot directory [name]
        if let .ok (real, .directory) := snapshot.files.find ⟨pathText location⟩ then
          snapshot ← addTree snapshot real
    | some .file =>
        let content ← if isDocument name then contentOf location else pure (.bytes [])
        snapshot := snapshot.with location (.file content)
    | _ => pure ()
  return snapshot

/-- The location from which a path is read, and its pieces. -/
def startOf (snapshot : Snapshot) (path : Path) : Location × List String :=
  (FileSystem.origin path snapshot.files.workDir, locationOf path.text)

/-- Reads what a path leads to. -/
def readPath (snapshot : Snapshot) (path : Path) : IO Snapshot :=
  let (here, pieces) := startOf snapshot path
  addPath snapshot here pieces

/-- Reads what a path leads to, with everything below it. -/
def readTree (snapshot : Snapshot) (path : Path) : IO Snapshot := do
  let snapshot ← readPath snapshot path
  match snapshot.files.find path with
  | .ok (location, .directory) => addTree snapshot location
  | _ => return snapshot

/-- The snapshot of the working directory. -/
def start : IO Snapshot := do
  let directory := locationOf (← IO.currentDir).toString
  addPath ⟨⟨[], directory⟩, []⟩ [] directory

/-- Writes one entry to the machine. A file is put in its place when it is complete. -/
def restoreEntry (location : Location) : Entry → IO Unit
  | .directory => IO.FS.createDirAll (pathText location)
  | .file (.text text) => do
      let staged := pathText location ++ ".staged"
      IO.FS.writeFile staged text
      IO.FS.rename staged (pathText location)
  | _ => return ()

/-- Writes what changed to the machine. -/
def restore (before after : FileSystem) : IO Unit := do
  for (location, entry) in after.entries do
    if before.entryAt? location ≠ some entry then restoreEntry location entry

end SchemaBeans.Machine
