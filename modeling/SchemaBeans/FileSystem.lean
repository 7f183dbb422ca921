import SchemaBeans.Keyed
import SchemaBeans.Path
import SchemaBeans.Sorted

/-!
# File systems

A file system holds files, links and directories at locations below its root. A
path is resolved piece by piece from the working directory or the root: links
are followed, and every place on the way must be a directory.
-/

namespace SchemaBeans

/-- The place of an entry: the names on the way to it from the root. -/
abbrev Location := List String

/-- What a file holds. -/
inductive Content where
  | text (text : String)
  /-- Bytes that are no text. -/
  | bytes (bytes : List UInt8)
  deriving DecidableEq, Repr

/-- What is found at a location. -/
inductive Entry where
  | file (content : Content)
  | link (target : Path)
  | directory
  deriving DecidableEq, Repr

/-- Files, links and directories, with the working directory of the process that uses them. -/
structure FileSystem where
  entries : List (Location × Entry)
  workDir : Location
  deriving DecidableEq, Repr

/-- Why the operating system refuses to access a path. -/
inductive AccessError where
  | missing
  | busy
  | occupied
  | notDirectory
  | isDirectory
  | nameTooLong
  | linkLoop
  /-- What a file holds is no text. -/
  | undecodable
  deriving DecidableEq, Repr

/-- The wording of an error with the number that the operating system gives it. -/
def AccessError.message : AccessError → String
  | missing => "No such file or directory (os error 2)"
  | busy => "Device or resource busy (os error 16)"
  | occupied => "File exists (os error 17)"
  | notDirectory => "Not a directory (os error 20)"
  | isDirectory => "Is a directory (os error 21)"
  | nameTooLong => "File name too long (os error 36)"
  | linkLoop => "Too many levels of symbolic links (os error 40)"
  | undecodable => "stream did not contain valid UTF-8"

/-- Where a path leads. -/
inductive Place where
  /-- A file or directory; links are never the end of a path. -/
  | found (location : Location) (entry : Entry)
  /-- A name that a directory does not hold. -/
  | vacant (directory : Location) (name : String)
  deriving DecidableEq, Repr

namespace FileSystem

/-- A name cannot have more bytes than this. -/
def nameLimit : Nat := 255

/-- A path cannot have as many bytes as this. -/
def pathLimit : Nat := 4096

/-- This many links are followed on the way of one path. -/
def linkLimit : Nat := 40

/-- What is at a location. The root is a directory. -/
def entryAt? (files : FileSystem) (location : Location) : Option Entry :=
  if location = [] then some .directory else files.entries.lookup location

/-- The names in the directory at a location, sorted. -/
def names (files : FileSystem) (location : Location) : List String :=
  Sorted.ofList Ord.compare (files.entries.filterMap fun entry =>
    if entry.1.dropLast = location then entry.1.getLast? else none)

/-- The pieces of a path between its separators. -/
def pieces (path : Path) : List String := Text.splitString '/' path.text

/-- Where a path starts that is met at a location. -/
def origin (path : Path) (here : Location) : Location := if path.isAbsolute then [] else here

/-- Whether only separators follow a name, and at least one. -/
def isClosed (rest : List String) : Bool := !rest.isEmpty && rest.all String.isEmpty

/-- What is found at a location other than the root is listed there. -/
theorem mem_entries_of_entryAt? {files : FileSystem} {location : Location} {entry : Entry}
    (found : files.entryAt? location = some entry) (proper : location ≠ []) :
    (location, entry) ∈ files.entries := by
  simp only [FileSystem.entryAt?, proper, if_false] at found
  obtain ⟨before, after, shape, _⟩ := List.lookup_eq_some_iff.mp found
  simp [shape]

/-- The number of pieces that an entry can bring into a path. -/
def piecesBehind : Entry → Nat
  | .link target => (pieces target).length
  | _ => 0

/-- A bound on the number of pieces that one link can bring into a path. -/
def targetLimit (files : FileSystem) : Nat :=
  files.entries.foldr (fun entry limit => max (piecesBehind entry.2) limit) 0

/-- No link brings more pieces into a path than the limit says. -/
theorem length_pieces_le_targetLimit {files : FileSystem} {location : Location} {target : Path}
    (linked : files.entryAt? location = some (.link target)) :
    (pieces target).length ≤ files.targetLimit := by
  have proper : location ≠ [] := by
    rintro rfl
    cases linked
  have inside := mem_entries_of_entryAt? linked proper
  unfold FileSystem.targetLimit
  generalize files.entries = entries at inside
  induction entries with
  | nil => cases inside
  | cons entry entries hypothesis =>
      rw [List.foldr_cons]
      rcases List.mem_cons.mp inside with rfl | later
      · exact Nat.le_max_left _ _
      · exact Nat.le_trans (hypothesis later) (Nat.le_max_right _ _)

/-- Follows the pieces of a path from the directory at a location; `links` bounds how many links
are followed. Where a file is to be made, no separator may follow its name, in the path or in the
target of the last link. -/
def walk (files : FileSystem) (making : Bool) :
    (links : Nat) → (pieces : List String) → (here : Location) → Except AccessError Place
  | _, [], here =>
      match files.entryAt? here with
      | some entry => .ok (.found here entry)
      | none => .error .missing
  | links, piece :: rest, here =>
      if piece = "" || piece = "." then files.walk making links rest here
      else if piece = ".." then files.walk making links rest here.dropLast
      else if making && isClosed rest then .error .isDirectory
      else if nameLimit < piece.utf8ByteSize then .error .nameTooLong
      else
        match _found : files.entryAt? (here ++ [piece]) with
        | some .directory => files.walk making links rest (here ++ [piece])
        | some (.file content) =>
            if rest.isEmpty then .ok (.found (here ++ [piece]) (.file content))
            else .error .notDirectory
        | some (.link target) =>
            match links with
            | 0 => .error .linkLoop
            | links + 1 =>
                if target.text.isEmpty then .error .missing
                else files.walk making links (pieces target ++ rest) (origin target here)
        | none =>
            if rest.all String.isEmpty then .ok (.vacant here piece)
            else .error .missing
termination_by links pieces => links * (files.targetLimit + 1) + pieces.length
decreasing_by
  · simp
  · simp
  · simp
  · have bound := length_pieces_le_targetLimit _found
    simp only [List.length_append, List.length_cons, Nat.succ_mul]
    omega

/-- What a walk finds is what is at the location that it comes to. -/
theorem entryAt?_of_walk {files : FileSystem} {making : Bool} {links : Nat} {pieces : List String}
    {here : Location} {location : Location} {entry : Entry}
    (found : files.walk making links pieces here = .ok (.found location entry)) :
    files.entryAt? location = some entry := by
  fun_induction FileSystem.walk files making links pieces here <;> simp_all

/-- The error of a path that cannot be walked at all: the empty one, or one that is too long. -/
def refusal? (path : Path) : Option AccessError :=
  if path.text.isEmpty then some .missing
  else if pathLimit ≤ path.text.utf8ByteSize then some .nameTooLong
  else none

/-- Where a path leads, perhaps to make a file there. -/
def place (files : FileSystem) (making : Bool) (path : Path) : Except AccessError Place :=
  match refusal? path with
  | some error => .error error
  | none => files.walk making linkLimit (pieces path) (origin path files.workDir)

/-- What a path leads to is what is at the location. -/
theorem entryAt?_of_place {files : FileSystem} {making : Bool} {path : Path} {location : Location}
    {entry : Entry} (found : files.place making path = .ok (.found location entry)) :
    files.entryAt? location = some entry := by
  unfold FileSystem.place at found
  split at found
  · cases found
  · exact entryAt?_of_walk found

/-- The file or directory that a path leads to. -/
def find (files : FileSystem) (path : Path) : Except AccessError (Location × Entry) :=
  match files.place false path with
  | .ok (.found location entry) => .ok (location, entry)
  | .ok (.vacant _ _) => .error .missing
  | .error error => .error error

/-- What is found at the end of a path is what is at the location. -/
theorem entryAt?_of_find {files : FileSystem} {path : Path} {location : Location} {entry : Entry}
    (found : files.find path = .ok (location, entry)) : files.entryAt? location = some entry := by
  unfold FileSystem.find at found
  split at found
  · rename_i placed
    simp only [Except.ok.injEq, Prod.mk.injEq] at found
    exact found.1 ▸ found.2 ▸ entryAt?_of_place placed
  · cases found
  · cases found

/-- Whether a path leads to something. -/
def pathExists (files : FileSystem) (path : Path) : Bool := (files.find path).isOk

/-- Whether a path leads to a file. -/
def isFile (files : FileSystem) (path : Path) : Bool :=
  match files.find path with
  | .ok (_, .file _) => true
  | _ => false

/-- Whether a path leads to a directory. -/
def isDirectory (files : FileSystem) (path : Path) : Bool :=
  match files.find path with
  | .ok (_, .directory) => true
  | _ => false

/-- The text of the file that a path leads to. -/
def read (files : FileSystem) (path : Path) : Except AccessError String :=
  match files.find path with
  | .ok (_, .file (.text text)) => .ok text
  | .ok (_, .file (.bytes _)) => .error .undecodable
  | .ok (_, _) => .error .isDirectory
  | .error error => .error error

/-- The path of the working directory from the root. -/
def workPath (files : FileSystem) : Path := ⟨"/" ++ Text.joinStrings "/" files.workDir⟩

end FileSystem

end SchemaBeans
