import SchemaBeans.Proofs.Places

/-!
# File trees

In a tree every entry has a name of its own in a directory. There a path that leads
to a directory leads on to the directories in it, as long as it does not get too
long, and a path that ends in a name is that of one entry of one directory.
-/

namespace SchemaBeans.FileSystem

/-- Every entry is in a directory, under a name that is no longer than names can be and that no
other entry of the directory has. -/
structure IsTree (files : FileSystem) : Prop where
  named : ∀ listed ∈ files.entries, ∀ name ∈ listed.1,
    Path.IsName name ∧ name.utf8ByteSize ≤ nameLimit
  distinct : (files.entries.map Prod.fst).Nodup
  grounded : ∀ listed ∈ files.entries, files.entryAt? listed.1.dropLast = some .directory

instance (files : FileSystem) : Decidable files.IsTree :=
  decidable_of_iff
    ((∀ listed ∈ files.entries, ∀ name ∈ listed.1,
        Path.IsName name ∧ name.utf8ByteSize ≤ nameLimit) ∧
      (files.entries.map Prod.fst).Nodup ∧
      ∀ listed ∈ files.entries, files.entryAt? listed.1.dropLast = some .directory)
    ⟨fun ⟨named, distinct, grounded⟩ => ⟨named, distinct, grounded⟩,
      fun tree => ⟨tree.named, tree.distinct, tree.grounded⟩⟩

variable {files : FileSystem} {location directory other : Location} {name otherName : String}
  {names : List String} {base path : Path} {entry : Entry}

/-- The names in a directory are those under which it has entries. -/
theorem mem_names : name ∈ files.names location ↔
    ∃ entry, (location ++ [name], entry) ∈ files.entries := by
  rw [names, Sorted.mem_ofList, List.mem_filterMap]
  constructor
  · rintro ⟨⟨place, entry⟩, listed, chosen⟩
    by_cases held : place.dropLast = location
    · rw [if_pos held] at chosen
      obtain ⟨front, rfl⟩ := List.getLast?_eq_some_iff.mp chosen
      rw [List.dropLast_concat] at held
      exact ⟨entry, held ▸ listed⟩
    · rw [if_neg held] at chosen
      cases chosen
  · rintro ⟨entry, listed⟩
    exact ⟨_, listed, by simp⟩

/-- What is found in a directory has a name there. -/
theorem mem_names_of_entryAt? (there : files.entryAt? (location ++ [name]) = some entry) :
    name ∈ files.names location :=
  mem_names.mpr ⟨entry, mem_entries_of_entryAt? there (by simp)⟩

/-- The names in the directories of a tree are proper. -/
theorem IsTree.named_of_mem (tree : files.IsTree) (inside : name ∈ files.names location) :
    Path.IsName name ∧ IsEntryName name := by
  obtain ⟨entry, listed⟩ := mem_names.mp inside
  obtain ⟨proper, short⟩ := tree.named _ listed name (by simp)
  exact ⟨proper, proper.ne_empty, proper.ne_here, proper.ne_up, short⟩

/-- The entries of a tree are found at their locations. -/
theorem IsTree.entryAt?_of_mem (tree : files.IsTree) (listed : (location, entry) ∈ files.entries)
    (proper : location ≠ []) : files.entryAt? location = some entry := by
  rw [FileSystem.entryAt?, if_neg proper]
  exact Keyed.lookup_of_mem tree.distinct listed

/-- What is above an entry is a directory. -/
theorem IsTree.directory_above (tree : files.IsTree) (given : names ≠ [])
    (there : files.entryAt? (location ++ names) = some entry) :
    files.entryAt? location = some .directory := by
  induction names using List.reverseRecOn generalizing entry with
  | nil => exact absurd rfl given
  | append_singleton names name hypothesis =>
      have proper : location ++ (names ++ [name]) ≠ [] := by simp
      have above := tree.grounded _ (mem_entries_of_entryAt? there proper)
      rw [← List.append_assoc, List.dropLast_concat] at above
      by_cases alone : names = []
      · rwa [alone, List.append_nil] at above
      · exact hypothesis alone above

/-- A path is refused for being empty or too long only. -/
theorem refusal?_eq_none_iff :
    refusal? path = none ↔ path.text ≠ "" ∧ path.text.utf8ByteSize < pathLimit := by
  unfold refusal?
  by_cases empty : path.text = ""
  · simp [empty]
  · simp [empty]

/-- What a path is found to lead to, it is not refused for. -/
theorem refusal?_of_find (found : files.find path = .ok (location, entry)) :
    refusal? path = none := by
  unfold FileSystem.find FileSystem.place at found
  cases refused : refusal? path with
  | none => rfl
  | some error =>
      rw [refused] at found
      cases found

/-- Where a path may go down, it may go down the first part of the way. -/
theorem refusal?_of_descend_append {rest : List String} (given : path.text ≠ "")
    (proper : ∀ name ∈ names ++ rest, Path.IsName name)
    (allowed : refusal? (path.descend (names ++ rest)) = none) :
    refusal? (path.descend names) = none := by
  obtain ⟨properNames, properRest⟩ := List.forall_mem_append.mp proper
  obtain ⟨more, upper⟩ := @Path.exists_text_descend path names properNames
  obtain ⟨further, lower⟩ := @Path.exists_text_descend (path.descend names) rest properRest
  obtain ⟨_, short⟩ := refusal?_eq_none_iff.mp allowed
  rw [Path.descend_append, lower, String.utf8ByteSize_append] at short
  refine refusal?_eq_none_iff.mpr ⟨?_, by omega⟩
  rw [upper]
  simp [given]

/-- A path is that of a name in the directory at a location. -/
def LiesIn (files : FileSystem) (path : Path) (directory : Location) (name : String) : Prop :=
  Path.IsName name ∧
    ∃ base, path = base.join ⟨name⟩ ∧ files.find base = .ok (directory, .directory)

/-- A path is that of one name in one directory. -/
theorem LiesIn.unique (lies : files.LiesIn path directory name)
    (liesToo : files.LiesIn path other otherName) : directory = other ∧ name = otherName := by
  obtain ⟨proper, base, rfl, found⟩ := lies
  obtain ⟨properToo, baseToo, same, foundToo⟩ := liesToo
  obtain ⟨front, left, whole, leads⟩ := (reaches_of_find found).exists_front proper.not_isAbsolute
  obtain ⟨frontToo, leftToo, wholeToo, leadsToo⟩ :=
    (reaches_of_find foundToo).exists_front properToo.not_isAbsolute
  rw [pieces_of_isName proper] at whole
  rw [← same, pieces_of_isName properToo, whole] at wholeToo
  obtain ⟨rfl, names⟩ := List.append_inj' wholeToo rfl
  rw [← same] at leadsToo
  exact ⟨leads.unique leadsToo, (List.cons.inj names).1⟩

/-- A path that leads to a directory leads on to one that is in it. -/
theorem find_join (proper : Path.IsName name) (named : IsEntryName name)
    (found : files.find base = .ok (location, .directory))
    (allowed : refusal? (base.join ⟨name⟩) = none)
    (there : files.entryAt? (location ++ [name]) = some .directory) :
    files.find (base.join ⟨name⟩) = .ok (location ++ [name], .directory) := by
  obtain ⟨front, left, whole, leads⟩ := (reaches_of_find found).exists_front proper.not_isAbsolute
  refine find_of_leads allowed leads rfl whole ?_
  rw [pieces_of_isName proper, walk_cons named, there, FileSystem.walk, there]

end SchemaBeans.FileSystem
