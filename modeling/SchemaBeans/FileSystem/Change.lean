import SchemaBeans.FileSystem

/-!
# Changing files

Making directories, writing files in place, and putting a finished file over
whatever stood at its path. A change that fails leaves the file system as it
was, except that a chain of directories may be made in part.
-/

namespace SchemaBeans

/-- The directory and the name that a path gives for what is to be made at it. -/
structure Slot where
  directory : Location
  /-- The last piece of the path, which is empty for the root. -/
  name : String
  /-- Whether a separator follows the name. -/
  closed : Bool
  deriving DecidableEq, Repr

namespace Slot

/-- Whether the last piece names nothing that can be made: the root, `.` or `..`. -/
def isStep (slot : Slot) : Bool := slot.name = "" || slot.name = "." || slot.name = ".."

/-- The location of what is to be made. -/
def location (slot : Slot) : Location := slot.directory ++ [slot.name]

end Slot

namespace FileSystem

/-- The file system with an entry at a location. -/
def put (files : FileSystem) (location : Location) (entry : Entry) : FileSystem :=
  { files with entries := Keyed.set location entry files.entries }

/-- The file system without the entry at a location and all that is below it. -/
def erase (files : FileSystem) (location : Location) : FileSystem :=
  { files with entries := files.entries.filter fun entry => !location.isPrefixOf entry.1 }

/-- The slot of a path. Links on the way to its last piece are followed. -/
def slot (files : FileSystem) (path : Path) : Except AccessError Slot :=
  match refusal? path with
  | some error => .error error
  | none =>
      let reversed := ((pieces path).reverse.dropWhile String.isEmpty)
      let before := reversed.tail.reverse ++ [""]
      match files.walk false linkLimit before (origin path files.workDir) with
      | .ok (.found directory _) =>
          .ok ⟨directory, reversed.headD "", (pieces path).getLast? = some ""⟩
      | .ok (.vacant _ _) => .error .missing
      | .error error => .error error

/-- Makes one directory. -/
def makeDirectory (files : FileSystem) (path : Path) : Except AccessError FileSystem :=
  match files.slot path with
  | .error error => .error error
  | .ok slot =>
      if slot.isStep then .error .occupied
      else if nameLimit < slot.name.utf8ByteSize then .error .nameTooLong
      else
        match files.entryAt? slot.location with
        | some _ => .error .occupied
        | none => .ok (files.put slot.location .directory)

/-- Makes a directory unless there is one. -/
def ensureDirectory (files : FileSystem) (path : Path) : Except AccessError FileSystem :=
  match files.makeDirectory path with
  | .ok files => .ok files
  | .error error => if files.isDirectory path then .ok files else .error error

/-- Makes a directory below the given parents, the nearest first; parents that are missing are made
before it. The empty path needs no directory. -/
def makeChain (files : FileSystem) (path : Path) (parents : List Path) :
    Except AccessError Unit × FileSystem :=
  if path.text.isEmpty then (.ok (), files)
  else
    match files.makeDirectory path with
    | .ok files => (.ok (), files)
    | .error .missing =>
        match parents with
        | [] => (.error .missing, files)
        | parent :: parents =>
            match files.makeChain parent parents with
            | (.error error, files) => (.error error, files)
            | (.ok (), files) =>
                match files.ensureDirectory path with
                | .ok files => (.ok (), files)
                | .error error => (.error error, files)
    | .error error => if files.isDirectory path then (.ok (), files) else (.error error, files)
termination_by structural parents

/-- Makes a directory and every directory on the way to it. What was made stays where the rest
fails. -/
def makeDirectories (files : FileSystem) (path : Path) : Except AccessError Unit × FileSystem :=
  files.makeChain path path.parents

/-- Writes a text to a path in place: a file is overwritten, also behind a link, and one that is
missing is made. -/
def write (files : FileSystem) (path : Path) (text : String) : Except AccessError FileSystem :=
  match files.place true path with
  | .ok (.found location (.file _)) => .ok (files.put location (.file (.text text)))
  | .ok (.found _ _) => .error .isDirectory
  | .ok (.vacant directory name) => .ok (files.put (directory ++ [name]) (.file (.text text)))
  | .error error => .error error

/-- The slot of a path at which a finished file can be put: no directory is there. -/
def fileSlot (files : FileSystem) (path : Path) : Except AccessError Slot :=
  match files.slot path with
  | .error error => .error error
  | .ok slot =>
      if slot.isStep then .error .busy
      else if nameLimit < slot.name.utf8ByteSize then .error .nameTooLong
      else if slot.closed then .error .notDirectory
      else
        match files.entryAt? slot.location with
        | some .directory => .error .isDirectory
        | _ => .ok slot

/-- Puts a finished file at a path in one step. A file or a link there is replaced. -/
def replace (files : FileSystem) (path : Path) (text : String) : Except AccessError FileSystem :=
  (files.fileSlot path).map fun slot => files.put slot.location (.file (.text text))

/-- Makes a link. -/
def makeLink (files : FileSystem) (path target : Path) : Except AccessError FileSystem :=
  match files.slot path with
  | .error error => .error error
  | .ok slot =>
      if slot.isStep then .error .occupied
      else if nameLimit < slot.name.utf8ByteSize then .error .nameTooLong
      else
        match files.entryAt? slot.location with
        | some _ => .error .occupied
        | none =>
            if slot.closed then .error .missing
            else .ok (files.put slot.location (.link target))

/-- Removes what a path names and everything below it; a link is removed itself. -/
def remove (files : FileSystem) (path : Path) : Except AccessError FileSystem :=
  match files.slot path with
  | .error error => .error error
  | .ok slot =>
      match files.entryAt? slot.location with
      | some _ => if slot.isStep then .error .busy else .ok (files.erase slot.location)
      | none => .error .missing

end FileSystem

end SchemaBeans
