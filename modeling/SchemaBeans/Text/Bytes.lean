/-!
# Places counted in bytes

The bytes of a text in UTF-8, and cuts at places that are counted in them. A
character belongs to the side of a cut on which it starts.
-/

namespace SchemaBeans.Text

/-- The number of bytes of a text. -/
def byteSize (text : List Char) : Nat :=
  text.foldl (fun size character => size + character.utf8Size) 0

/-- The characters that start in the first `count` bytes. -/
def takeBytes (count : Nat) : List Char → List Char
  | [] => []
  | character :: rest =>
      if count = 0 then [] else character :: takeBytes (count - character.utf8Size) rest

/-- The characters after those that start in the first `count` bytes. -/
def dropBytes (count : Nat) : List Char → List Char
  | [] => []
  | character :: rest =>
      if count = 0 then character :: rest else dropBytes (count - character.utf8Size) rest

end SchemaBeans.Text
