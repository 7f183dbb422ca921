import SchemaBeans.Proofs.Trees

/-!
# Paths that lead to one directory

Where several paths lead to a directory, they lead on to the same entries of it. Only
the limits of the operating system tell them apart: the path of a detour may be too
long, and on its way more links may be followed than are allowed.
-/

namespace SchemaBeans

/-- An error that tells how far a path is followed, and nothing about what is there. -/
def AccessError.IsLimit (error : AccessError) : Prop := error = .linkLoop ∨ error = .nameTooLong

namespace FileSystem

variable {files : FileSystem} {links fewer more : Nat} {front rest : List String}
  {here there location place : Location} {entry : Entry} {error : AccessError}
  {base other : Path} {name : String}

end FileSystem

end SchemaBeans
