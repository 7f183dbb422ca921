import SchemaBeans.Text.Pieces

/-!
# Paths

A path is kept as the text it was written or built as, and is read as a list of
components. Empty components and `.` are no components, except for a `.` that
starts the path. Order compares components, not texts.
-/

namespace SchemaBeans

/-- A file path, as text with `/` between its components. -/
structure Path where
  text : String
  deriving DecidableEq, Repr, Inhabited

/-- One component of a path. -/
inductive Component where
  | root
  | here
  | up
  | name (text : String)
  deriving DecidableEq, Repr

namespace Component

/-- The text of a component. -/
def text : Component → String
  | root => "/"
  | here => "."
  | up => ".."
  | name text => text

/-- The place of a kind of component in the order of paths. -/
def rank : Component → Nat
  | root => 0
  | here => 1
  | up => 2
  | name _ => 3

/-- The name of a component that is neither the root nor a relative step. -/
def name? : Component → Option String
  | name text => some text
  | _ => none

/-- The order of components: by kind, then names by their characters. -/
def compare (left right : Component) : Ordering :=
  (Ord.compare left.rank right.rank).then
    (match left, right with
      | name leftText, name rightText => Ord.compare leftText rightText
      | _, _ => .eq)

end Component

namespace Path

/-- A component with the places in the path's text where it starts and stops. -/
structure Span where
  component : Component
  start : Nat
  stop : Nat
  deriving Repr

/-- The component that a piece of text between separators stands for, inside a path. -/
def pieceComponent? (piece : List Char) : Option Component :=
  if piece = [] || piece = ['.'] then none
  else if piece = ['.', '.'] then some .up
  else some (.name (String.ofList piece))

/-- The spans of the pieces from position `start` on. -/
def bodySpans : Nat → List (List Char) → List Span
  | _, [] => []
  | start, piece :: pieces =>
      let stop := start + piece.length
      match pieceComponent? piece with
      | some component => ⟨component, start, stop⟩ :: bodySpans (stop + 1) pieces
      | none => bodySpans (stop + 1) pieces

/-- The components of a path with their places. -/
def spans (path : Path) : List Span :=
  match Text.split '/' path.text.toList with
  | [] => []
  | [] :: [] => []
  | [] :: pieces => ⟨.root, 0, 1⟩ :: bodySpans 1 pieces
  | ['.'] :: pieces => ⟨.here, 0, 1⟩ :: bodySpans 2 pieces
  | piece :: pieces => bodySpans 0 (piece :: pieces)

/-- The components of a path. -/
def components (path : Path) : List Component := path.spans.map Span.component

/-- Whether a path starts at the root. -/
def isAbsolute (path : Path) : Bool := path.text.toList.head? = some '/'

/-- Appends a path to another: an absolute path replaces it, and a separator is put between them
unless the first is empty or already ends with one. -/
def join (base tail : Path) : Path :=
  if tail.isAbsolute then tail
  else
    match base.text.toList.getLast? with
    | none => tail
    | some '/' => ⟨base.text ++ tail.text⟩
    | some _ => ⟨base.text ++ "/" ++ tail.text⟩

/-- The path of what is reached from a path by some names. -/
def descend (path : Path) (names : List String) : Path :=
  names.foldl (fun path name => path.join ⟨name⟩) path

/-- The characters of the path's text from `start` up to `stop`. -/
def slice (path : Path) (start stop : Nat) : Path :=
  ⟨String.ofList ((path.text.toList.take stop).drop start)⟩

/-- What is left of the path when components are taken off its end, one after the other: down to
the root, or else to the empty path. -/
def parents (path : Path) : List Path :=
  let cut := path.spans.reverse.tail.map fun span => path.slice 0 span.stop
  match path.spans with
  | [] => []
  | first :: _ => if first.component = .root then cut else cut ++ [⟨""⟩]

/-- The path without its last component; the root and the empty path have no parent. -/
def parent? (path : Path) : Option Path := path.parents.head?

/-- The path and its parents, the nearest first. -/
def ancestors (path : Path) : List Path := path :: path.parents

/-- The last component, if it is a name. -/
def fileName? (path : Path) : Option String :=
  path.components.getLast?.bind Component.name?

/-- The part of a file name after its last dot, if something stands before that dot. -/
def extensionOf? (fileName : String) : Option String :=
  match (Text.split '.' fileName.toList).reverse with
  | last :: before :: more =>
      if before = [] && more = [] then none else some (String.ofList last)
  | _ => none

/-- The extension of the path's file name. -/
def extension? (path : Path) : Option String := path.fileName?.bind extensionOf?

/-- What is left of the spans of a path after those of a base, if they start with the same
components. -/
def spansAfter? : List Span → List Component → Option (List Span)
  | spans, [] => some spans
  | [], _ :: _ => none
  | span :: spans, component :: components =>
      if span.component = component then spansAfter? spans components else none

/-- The path relative to `base`, if its components start with those of `base`. -/
def relativeTo? (path base : Path) : Option Path :=
  (spansAfter? path.spans base.components).map fun rest =>
    match rest.head?, rest.getLast? with
    | some first, some last => path.slice first.start last.stop
    | _, _ => ⟨""⟩

/-- The order of lists of components. -/
def compareComponents : List Component → List Component → Ordering
  | [], [] => .eq
  | [], _ :: _ => .lt
  | _ :: _, [] => .gt
  | left :: lefts, right :: rights =>
      (left.compare right).then (compareComponents lefts rights)

/-- The order of paths: component by component. -/
def compare (left right : Path) : Ordering :=
  compareComponents left.components right.components

/-- The components joined with `/`. The root is a component like any other, so an absolute path
starts with two separators. -/
def componentText (path : Path) : String :=
  Text.joinStrings "/" (path.components.map Component.text)

/-- The names among the components. -/
def names (path : Path) : List String := path.components.filterMap Component.name?

end Path

end SchemaBeans
