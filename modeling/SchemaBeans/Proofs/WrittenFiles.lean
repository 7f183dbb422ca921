import SchemaBeans.Proofs.Places
import SchemaBeans.Proofs.Writing

/-!
# Reading what was written

A text is written in place where a path leads to a file, or to a name that is vacant.
Directories and links stay as they were, so that the path leads there again.
-/

namespace SchemaBeans

/-- The location of a place. -/
def Place.location : Place → Location
  | found location _ => location
  | vacant directory name => directory ++ [name]

namespace FileSystem

variable {files before after : FileSystem} {links : Nat} {trail : List String}
  {here location : Location} {path : Path} {place : Place} {content : Content} {text : String}

/-- A walk to where a file is made comes to the file once it is there. -/
theorem walk_of_walk_making (keeps : Keeps before after)
    (there : after.entryAt? place.location = some (.file content))
    (walked : before.walk true links trail here = .ok place) :
    after.walk false links trail here = .ok (.found place.location (.file content)) := by
  fun_induction FileSystem.walk before true links trail here with
  | case1 links here entry found =>
      cases walked
      rw [FileSystem.walk]
      simp only [Place.location] at there ⊢
      rw [there]
  | case3 links piece rest here step hypothesis =>
      have step : piece = "" ∨ piece = "." := by simpa using step
      rw [walk_stay step]
      exact hypothesis walked
  | case4 links rest here _ hypothesis =>
      rw [walk_up]
      exact hypothesis walked
  | case7 links piece rest here plain notUp _ short found hypothesis =>
      rw [walk_cons (isEntryName_of_not plain notUp short), keeps.directory _ found]
      exact hypothesis walked
  | case8 links piece rest here plain notUp _ short content found final =>
      cases walked
      simp only [Place.location] at there ⊢
      rw [walk_cons (isEntryName_of_not plain notUp short), there]
      simp [final]
  | case12 piece rest here plain notUp _ short target found links given hypothesis =>
      rw [walk_cons (isEntryName_of_not plain notUp short), keeps.link _ _ found]
      simp only [given]
      exact hypothesis walked
  | case13 links piece rest here plain notUp unclosed short found final =>
      cases walked
      have last : rest.isEmpty = true := by simpa [isClosed, final] using unclosed
      simp only [Place.location] at there ⊢
      rw [walk_cons (isEntryName_of_not plain notUp short), there]
      simp [last]
  | case2 | case5 | case6 | case9 | case10 | case11 | case14 => cases walked

/-- A path leads to the file that is made at it. -/
theorem find_of_place_making (keeps : Keeps before after)
    (there : after.entryAt? place.location = some (.file content))
    (placed : before.place true path = .ok place) :
    after.find path = .ok (place.location, .file content) := by
  unfold FileSystem.place at placed
  split at placed
  · cases placed
  · next allowed =>
      have walked := walk_of_walk_making keeps there placed
      rw [← keeps.workDir] at walked
      simp only [FileSystem.find, FileSystem.place, allowed, walked]

/-- Nothing is at a name that is found vacant. -/
theorem entryAt?_of_walk_vacant {making : Bool} {directory : Location} {name : String}
    (walked : files.walk making links trail here = .ok (.vacant directory name)) :
    files.entryAt? (directory ++ [name]) = none := by
  fun_induction FileSystem.walk files making links trail here <;> simp_all

/-- Nothing is at the vacant place of a path. -/
theorem entryAt?_of_place_vacant {making : Bool} {directory : Location} {name : String}
    (placed : files.place making path = .ok (.vacant directory name)) :
    files.entryAt? (directory ++ [name]) = none := by
  unfold FileSystem.place at placed
  split at placed
  · cases placed
  · exact entryAt?_of_walk_vacant placed

/-- A file may stand where nothing or a file was, with all directories and links as they were. -/
theorem keeps_put (free : files.entryAt? location = none ∨
    ∃ content, files.entryAt? location = some (.file content)) (proper : location ≠ []) :
    Keeps files (files.put location (.file content)) :=
  keeps_of_settled rfl free fun other different =>
    .inl (by rw [entryAt?_put proper, if_neg different])

/-- What is written goes to the place of its path, where nothing or a file was. -/
theorem write_eq_ok (written : files.write path text = .ok after) :
    ∃ place, files.place true path = .ok place ∧ place.location ≠ [] ∧
      (files.entryAt? place.location = none ∨
        ∃ content, files.entryAt? place.location = some (.file content)) ∧
      after = files.put place.location (.file (.text text)) := by
  unfold FileSystem.write at written
  split at written
  · next location content placed =>
      cases written
      have file := entryAt?_of_place placed
      have proper : location ≠ [] := by
        rintro rfl
        cases file
      exact ⟨_, placed, proper, .inr ⟨content, file⟩, rfl⟩
  · cases written
  · next directory name placed =>
      cases written
      exact ⟨_, placed, List.concat_ne_nil _ _, .inl (entryAt?_of_place_vacant placed), rfl⟩
  · cases written

/-- What is written at a path is read there. -/
theorem read_of_write (written : files.write path text = .ok after) :
    after.read path = .ok text := by
  obtain ⟨place, placed, proper, free, rfl⟩ := write_eq_ok written
  have there : (files.put place.location (.file (.text text))).entryAt? place.location =
      some (.file (.text text)) := by
    rw [entryAt?_put proper, if_pos rfl]
  rw [FileSystem.read, find_of_place_making (keeps_put free proper) there placed]

end FileSystem

end SchemaBeans
