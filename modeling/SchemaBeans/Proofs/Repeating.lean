import SchemaBeans.Proofs.Ways

/-!
# Writing once more

What was made and written is made and written again without any change: a directory
that is there is not made once more, and a file is replaced by the same text. This
holds as long as the process is in a directory and every directory is in another,
which making directories and replacing files preserves.
-/

namespace SchemaBeans

namespace FileSystem

variable {files before between after later : FileSystem} {links left : Nat} {trail : List String}
  {here there location root : Location} {path base : Path} {parents : List Path} {entry : Entry}
  {slot : Slot} {text name : String} {names : List String}

theorem Keeps.refl (files : FileSystem) : Keeps files files :=
  ⟨rfl, fun _ => id, fun _ _ => id⟩

/-- What two changes keep, both together keep. -/
theorem Keeps.trans (first : Keeps before between) (second : Keeps between after) :
    Keeps before after :=
  ⟨second.workDir.trans first.workDir,
    fun location found => second.directory location (first.directory location found),
    fun location target found => second.link location target (first.link location target found)⟩

/-- A tree in which the process is in a directory. -/
structure IsUsable (files : FileSystem) : Prop where
  tree : files.IsTree
  workDir : files.entryAt? files.workDir = some .directory

instance (files : FileSystem) : Decidable files.IsUsable :=
  decidable_of_iff (files.IsTree ∧ files.entryAt? files.workDir = some .directory)
    ⟨fun ⟨tree, workDir⟩ => ⟨tree, workDir⟩, fun usable => ⟨usable.tree, usable.workDir⟩⟩

/-- A directory of a tree is in another one, or it is the root. -/
theorem IsTree.directory_dropLast (tree : files.IsTree)
    (found : files.entryAt? location = some .directory) :
    files.entryAt? location.dropLast = some .directory := by
  rcases List.eq_nil_or_concat' location with rfl | ⟨above, name, rfl⟩
  · exact found
  · rw [List.dropLast_concat]
    exact tree.directory_above (by simp) found

/-- A path starts at a directory. -/
theorem IsUsable.origin (usable : files.IsUsable) (path : Path) :
    files.entryAt? (origin path files.workDir) = some .directory := by
  unfold FileSystem.origin
  split
  · rfl
  · exact usable.workDir

/-- From a directory of a tree, pieces lead to a directory. -/
theorem IsTree.directory_of_leads (tree : files.IsTree)
    (leads : Leads files links trail here left there)
    (start : files.entryAt? here = some .directory) : files.entryAt? there = some .directory := by
  induction leads with
  | done => exact start
  | stay _ _ hypothesis => exact hypothesis start
  | up _ hypothesis => exact hypothesis (tree.directory_dropLast start)
  | enter _ found _ hypothesis => exact hypothesis found
  | follow _ _ _ _ hypothesis =>
      refine hypothesis ?_
      unfold FileSystem.origin
      split
      · rfl
      · exact start

/-- A tree stays one when something is put in a directory and does not take the place of another. -/
theorem IsTree.put (tree : files.IsTree) (proper : Path.IsName name)
    (short : name.utf8ByteSize ≤ nameLimit) (holder : files.entryAt? location = some .directory)
    (free : files.entryAt? (location ++ [name]) = some .directory → entry = .directory) :
    (files.put (location ++ [name]) entry).IsTree := by
  have own : location ++ [name] ≠ [] := by simp
  have stays : ∀ place, files.entryAt? place = some .directory →
      (files.put (location ++ [name]) entry).entryAt? place = some .directory := by
    intro place there
    rw [entryAt?_put own]
    by_cases same : place = location ++ [name]
    · rw [if_pos same, free (same ▸ there)]
    · rw [if_neg same, there]
  refine ⟨fun listed inside part member => ?_, Keyed.nodup_set _ _ tree.distinct,
    fun listed inside => stays _ ?_⟩
  · rcases Keyed.mem_of_mem_set inside with rfl | later
    · rcases List.mem_append.mp member with above | last
      · have given : location ≠ [] := List.ne_nil_of_mem above
        exact tree.named _ (mem_entries_of_entryAt? holder given) part above
      · rw [List.mem_singleton.mp last]
        exact ⟨proper, short⟩
    · exact tree.named listed later part member
  · rcases Keyed.mem_of_mem_set inside with rfl | later
    · rw [List.dropLast_concat]
      exact holder
    · exact tree.grounded listed later

/-- What is put in the slot of a path leaves a tree, if it does not take the place of a directory. -/
theorem IsUsable.put (usable : files.IsUsable) (found : files.slot path = .ok slot)
    (named : IsEntryName slot.name)
    (free : files.entryAt? slot.location = some .directory → entry = .directory) :
    (files.put slot.location entry).IsUsable := by
  obtain ⟨_, front, closing, left, _, whole, _, leads, _⟩ :=
    exists_leads_of_slot found named.ne_empty
  have holder := usable.tree.directory_of_leads leads (usable.origin path)
  have piece : slot.name ∈ pieces path := whole ▸ List.mem_append_right _ List.mem_cons_self
  have proper : Path.IsName slot.name := by
    refine ⟨named.ne_empty, named.ne_here, named.ne_up, ?_⟩
    obtain ⟨text, inside, same⟩ := List.mem_map.mp piece
    rw [← same, String.toList_ofList]
    exact Text.not_mem_of_mem_split inside
  refine ⟨usable.tree.put proper named.short holder free, ?_⟩
  have kept : (files.put slot.location entry).workDir = files.workDir := rfl
  rw [kept, entryAt?_put (location_ne_nil slot)]
  by_cases same : files.workDir = slot.location
  · rw [if_pos same, free (same ▸ usable.workDir)]
  · rw [if_neg same, usable.workDir]

/-- Making a directory leaves a file system usable. -/
theorem IsUsable.makeDirectory (usable : files.IsUsable)
    (made : files.makeDirectory path = .ok later) : later.IsUsable := by
  obtain ⟨slot, found, named, _, rfl⟩ := makeDirectory_eq_ok made
  exact usable.put found named fun _ => rfl

/-- Replacing a file leaves a file system usable. -/
theorem IsUsable.replace (usable : files.IsUsable)
    (replaced : files.replace path text = .ok later) : later.IsUsable := by
  obtain ⟨slot, found, named, noDirectory, rfl⟩ := replace_eq_ok replaced
  exact usable.put found named fun held => absurd held noDirectory

/-- What making a directory preserves is preserved by making a chain of directories. -/
theorem makeChain_preserves {holds : FileSystem → Prop}
    (step : ∀ {files later : FileSystem} {path : Path}, holds files →
      files.makeDirectory path = .ok later → holds later)
    (begun : holds files) (path : Path) (parents : List Path) :
    holds (files.makeChain path parents).2 := by
  induction parents generalizing path with
  | nil =>
      rw [makeChain]
      split
      · exact begun
      · split
        · next later made => exact step begun made
        · exact begun
        · split <;> exact begun
  | cons parent parents hypothesis =>
      rcases makeChain_cases files path parent parents with same | made | same | made
      · rwa [same]
      · exact step begun made
      · rw [same]
        exact hypothesis parent
      · exact step (hypothesis parent) made

/-- Making the directories of a path leaves a file system usable. -/
theorem IsUsable.makeDirectories (usable : files.IsUsable) (path : Path) :
    (files.makeDirectories path).2.IsUsable :=
  makeChain_preserves IsUsable.makeDirectory usable path path.parents

/-- A walk that finds a directory finds it while directories and links stay. -/
theorem walk_of_keeps (keeps : Keeps before after)
    (found : before.walk false links trail here = .ok (.found location .directory)) :
    after.walk false links trail here = .ok (.found location .directory) := by
  obtain ⟨left, leads⟩ := exists_leads_of_walk found (.inl rfl)
  have there := keeps.directory _ (entryAt?_of_walk found)
  rw [← List.append_nil trail, walk_of_leads (leads.of_keeps keeps), FileSystem.walk, there]

/-- A path keeps its slot while directories and links stay. -/
theorem slot_of_keeps (keeps : Keeps before after) (usable : before.IsUsable)
    (found : before.slot path = .ok slot) : after.slot path = .ok slot := by
  unfold FileSystem.slot at found ⊢
  cases refused : refusal? path with
  | some error =>
      rw [refused] at found
      cases found
  | none =>
      simp only [refused, keeps.workDir] at found ⊢
      split at found
      · next directory entry walked =>
          -- A separator is behind the directory, so a file cannot be there.
          obtain ⟨left, leads⟩ := exists_leads_of_walk walked (.inr (by simp))
          obtain rfl : Entry.directory = entry := by
            have held := usable.tree.directory_of_leads leads (usable.origin path)
            exact Option.some.inj (held.symm.trans (entryAt?_of_walk walked))
          simp only [walk_of_keeps keeps walked]
          exact found
      · cases found
      · cases found

/-- A path that leads to a directory has a slot. -/
theorem exists_slot_of_find (usable : files.IsUsable)
    (found : files.find path = .ok (location, .directory)) :
    ∃ slot, files.slot path = .ok slot := by
  obtain ⟨left, leads⟩ := reaches_of_find found
  have parts := @List.takeWhile_append_dropWhile _ String.isEmpty (pieces path).reverse
  unfold FileSystem.slot
  simp only [refusal?_of_find found]
  generalize (pieces path).reverse.takeWhile String.isEmpty = closing at parts
  generalize (pieces path).reverse.dropWhile String.isEmpty = reversed at parts
  -- The pieces before the last that is not empty lead to a directory as well.
  obtain ⟨behind, whole⟩ : ∃ behind, pieces path = reversed.tail.reverse ++ behind := by
    rw [← List.reverse_reverse (pieces path), ← parts]
    cases reversed with
    | nil => exact ⟨closing.reverse, by simp⟩
    | cons name before => exact ⟨name :: closing.reverse, by simp⟩
  rw [whole] at leads
  obtain ⟨left, there, first⟩ := leads.exists_front
  have directory := usable.tree.directory_of_leads first (usable.origin path)
  rw [walk_of_leads first, walk_stay (.inl rfl), FileSystem.walk, directory]
  exact ⟨_, rfl⟩

/-- No directory is missing on the way of a path that leads to one. -/
theorem makeDirectory_ne_missing (usable : files.IsUsable)
    (found : files.find path = .ok (location, .directory)) :
    files.makeDirectory path ≠ .error .missing := by
  obtain ⟨slot, has⟩ := exists_slot_of_find usable found
  unfold FileSystem.makeDirectory
  rw [has]
  simp only
  split
  · simp
  · split
    · simp
    · split <;> simp

/-- The directories on the way to one that is there are not made. -/
theorem makeDirectories_of_find (usable : files.IsUsable)
    (found : files.find path = .ok (location, .directory)) :
    files.makeDirectories path = (.ok (), files) := by
  obtain ⟨given, _⟩ := refusal?_eq_none_iff.mp (refusal?_of_find found)
  have there : files.isDirectory path = true := by simp [FileSystem.isDirectory, found]
  unfold FileSystem.makeDirectories
  rw [makeChain.eq_def, if_neg (by simpa using given)]
  split
  · next later made =>
      exact absurd made
        (makeDirectory_ne_ok (reaches_of_find found) (.inl ⟨[], (List.append_nil _).symm⟩) later)
  · next missing => exact absurd missing (makeDirectory_ne_missing usable found)
  · rw [if_pos there]

/-- Directories that were made are not made once more. -/
theorem makeDirectories_again (made : files.makeDirectories path = (.ok (), between))
    (keeps : Keeps between after) (usable : after.IsUsable) :
    after.makeDirectories path = (.ok (), after) := by
  obtain ⟨_, there⟩ := makeChain_spec files path path.parents
  simp only [FileSystem.makeDirectories] at made
  rw [made] at there
  rcases there rfl with empty | directory
  · unfold FileSystem.makeDirectories
    rw [makeChain.eq_def, if_pos empty]
  · unfold FileSystem.isDirectory at directory
    split at directory
    · next location found => exact makeDirectories_of_find usable (find_of_keeps keeps found)
    · cases directory

/-- Putting what is at a location there changes nothing. -/
theorem put_eq_self (found : files.entryAt? location = some entry) (proper : location ≠ []) :
    files.put location entry = files := by
  rw [FileSystem.entryAt?, if_neg proper] at found
  rw [FileSystem.put, Keyed.set_eq_self found]

/-- A file is replaced by its own text without any change. -/
theorem replace_again (usable : files.IsUsable) (unlinked : files.Unlinked root)
    (reaches : files.Reaches base root) (proper : ∀ name ∈ names, Path.IsName name)
    (given : names ≠ []) {tail : Path} (relative : tail.isAbsolute = false)
    (whole : pieces tail = names)
    (replaced : files.replace (base.join tail) text = .ok between) (keeps : Keeps files after)
    (there : after.entryAt? (root ++ names) = some (.file (.text text))) :
    after.replace (base.join tail) text = .ok after := by
  obtain ⟨directories, name, rfl⟩ := (List.eq_nil_or_concat' names).resolve_left given
  obtain ⟨slot, fits, _⟩ := replace_eq_ok_iff.mp replaced
  obtain ⟨found, named, unclosed, _⟩ := fileSlot_eq_ok_iff.mp fits
  obtain ⟨_, same, _⟩ := slot_of_join unlinked reaches proper relative whole found named
  have noDirectory : after.entryAt? slot.location ≠ some .directory := by
    rw [same, there]
    simp
  refine replace_eq_ok_iff.mpr ⟨slot, fileSlot_eq_ok_iff.mpr
    ⟨slot_of_keeps keeps usable found, named, unclosed, noDirectory⟩, ?_⟩
  rw [same, put_eq_self there (by simp)]

end FileSystem

namespace SourceUnit

open FileSystem (Keeps IsUsable Unlinked Reaches)

variable {files between after : FileSystem} {unit : SourceUnit} {base path : Path} {root : Location}

/-- Writing a unit leaves a file system usable, also where it fails. -/
theorem isUsable_write (unit : SourceUnit) (base : Path) (usable : files.IsUsable) :
    (unit.write base files).2.IsUsable := by
  have made := usable.makeDirectories (unit.targetDirectory base)
  rcases write_cases unit base files with ⟨error, same⟩ | ⟨later, replaced, same⟩
  · rw [same]
    exact made
  · rw [same]
    exact made.replace replaced

/-- A unit that was written is written once more without any change, while directories and links stay
and its file does. -/
theorem write_again (usable : files.IsUsable) (unlinked : files.Unlinked root)
    (reaches : files.Reaches base root) (plain : unit.relative.IsPlain)
    (written : unit.write base files = (.ok path, between)) (keeps : Keeps between after)
    (usableAfter : after.IsUsable)
    (same : after.entryAt? (root ++ unit.relative.names) =
      between.entryAt? (root ++ unit.relative.names)) :
    unit.write base after = (.ok path, after) := by
  have whole : FileSystem.pieces unit.relative = unit.relative.names :=
    (congrArg FileSystem.pieces plain.text).trans
      (FileSystem.pieces_descend plain.proper plain.given)
  have extended := FileSystem.extends_makeDirectories files (unit.targetDirectory base)
  have usableMade := usable.makeDirectories (unit.targetDirectory base)
  unfold SourceUnit.write at written ⊢
  split at written
  · cases written
  · next middle made =>
      rw [made] at extended usableMade
      split at written
      · cases written
      · next replaced =>
          cases written
          have stillUnlinked := unlinked.of_settled fun below _ => extended.settled below
          have stillReaches := reaches.of_keeps extended.keeps
          obtain ⟨_, puts⟩ := FileSystem.puts_of_replace stillUnlinked stillReaches plain.proper
            plain.given plain.not_isAbsolute whole replaced
          have further := puts.keeps.trans keeps
          have directories := FileSystem.makeDirectories_again made further usableAfter
          have again := FileSystem.replace_again usableMade stillUnlinked stillReaches plain.proper
            plain.given plain.not_isAbsolute whole replaced further (same.trans puts.holds.file)
          simp only [directories]
          rw [show after.replace (unit.target base) (clean unit.source) = .ok after from again]

end SourceUnit

end SchemaBeans
