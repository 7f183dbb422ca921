import SchemaBeans.Proofs.Parents

/-!
# Chains of directories

Making a directory makes those on the way to it that are missing, and nothing else.
Below a directory without links these are the directories of the names that were
appended to its path, so writing a unit changes nothing but its file and the
directories of its package.
-/

namespace SchemaBeans

namespace FileSystem

variable {files : FileSystem} {path base : Path} {parents : List Path} {root location : Location}
  {names : List String} {name : String}

/-- The inversion of a chain: it is left as it is, or a directory is made at its path, at once or
after the chain of the nearest parent. -/
theorem makeChain_cases (files : FileSystem) (path parent : Path) (parents : List Path) :
    (files.makeChain path (parent :: parents)).2 = files ∨
      files.makeDirectory path = .ok (files.makeChain path (parent :: parents)).2 ∨
      (files.makeChain path (parent :: parents)).2 = (files.makeChain parent parents).2 ∨
      (files.makeChain parent parents).2.makeDirectory path =
        .ok (files.makeChain path (parent :: parents)).2 := by
  rw [makeChain]
  split
  · exact .inl rfl
  · split
    · next later made => exact .inr (.inl made)
    · split
      · next error later failed => exact .inr (.inr (.inl (by rw [failed])))
      · next between chained =>
          unfold ensureDirectory
          cases made : between.makeDirectory path with
          | ok later => exact .inr (.inr (.inr (by rw [chained]; exact made)))
          | error error =>
              refine .inr (.inr (.inl ?_))
              simp only
              split
              · next ended =>
                  split at ended <;> cases ended
                  rw [chained]
              · rw [chained]
    · split <;> exact .inl rfl

/-- A chain in which no directory can be made changes nothing. -/
theorem makeChain_eq_self
    (never : ∀ front ∈ path :: parents, ∀ later, files.makeDirectory front ≠ .ok later) :
    (files.makeChain path parents).2 = files := by
  induction parents generalizing path with
  | nil =>
      obtain ⟨own, _⟩ := List.forall_mem_cons.mp never
      rw [makeChain]
      split
      · rfl
      · split
        · next later made => exact absurd made (own later)
        · rfl
        · split <;> rfl
  | cons parent parents hypothesis =>
      obtain ⟨own, others⟩ := List.forall_mem_cons.mp never
      have chain := hypothesis others
      rcases makeChain_cases files path parent parents with same | made | same | made
      · exact same
      · exact absurd made (own _)
      · exact same.trans chain
      · rw [chain] at made
        exact absurd made (own _)

/-- Nothing is made on the way to where a path already leads. -/
theorem makeChain_trimmed (reaches : files.Reaches base root) :
    (files.makeChain base.trimmed base.parents).2 = files := by
  refine makeChain_eq_self (List.forall_mem_cons.mpr ⟨?_, fun parent inside => ?_⟩)
  · exact makeDirectory_ne_ok reaches.trimmed (.inl ⟨[], (List.append_nil _).symm⟩)
  · exact makeDirectory_ne_ok reaches (Path.split_of_mem_parents inside)

/-- No directories are made where a path already leads to one. -/
theorem makeDirectories_of_reaches (reaches : files.Reaches path root) :
    (files.makeDirectories path).2 = files := by
  refine makeChain_eq_self (List.forall_mem_cons.mpr ⟨?_, fun parent inside => ?_⟩)
  · exact makeDirectory_ne_ok reaches (.inl ⟨[], (List.append_nil _).symm⟩)
  · exact makeDirectory_ne_ok reaches (Path.split_of_mem_parents inside)

/-- Where no links are, the directory of some names is made where the names lead. -/
theorem makeDirectory_descend (unlinked : files.Unlinked root) (reaches : files.Reaches base root)
    (proper : ∀ part ∈ names ++ [name], Path.IsName part) {later : FileSystem}
    (made : files.makeDirectory (base.descend (names ++ [name])) = .ok later) :
    files.entryAt? (root ++ (names ++ [name])) = none ∧
      later = files.put (root ++ (names ++ [name])) .directory := by
  rw [← Path.join_descend proper (by simp)] at made
  obtain ⟨slot, found, named, vacant, rfl⟩ := makeDirectory_eq_ok made
  have relative : (Path.descend ⟨""⟩ (names ++ [name])).isAbsolute = false := by
    rw [Path.isAbsolute_descend proper]
    rfl
  obtain ⟨_, there, _⟩ := slot_of_join unlinked reaches proper relative
    (pieces_descend proper (by simp)) found named
  exact ⟨there ▸ vacant, by rw [there]⟩

/-- What changes in a directory without links when the directories of some names are made in it:
the places of the first names, and no other. -/
theorem entryAt?_makeDirectories_descend (unlinked : files.Unlinked root)
    (reaches : files.Reaches base root) (proper : ∀ part ∈ names, Path.IsName part)
    (given : names ≠ []) (location : Location) :
    (files.makeDirectories (base.descend names)).2.entryAt? location = files.entryAt? location ∨
      ∃ front, front ≠ [] ∧ front <+: names ∧ location = root ++ front := by
  induction names using List.reverseRecOn with
  | nil => exact absurd rfl given
  | append_singleton names name hypothesis =>
      obtain ⟨properNames, own⟩ := List.forall_mem_append.mp proper
      have last := own name (List.mem_singleton_self name)
      have parents : (base.descend (names ++ [name])).parents =
          (base.descend names).trimmed :: (base.descend names).parents := by
        rw [Path.descend_concat, Path.parents_join last]
      -- The chain of the parent changes the places of the first names only.
      have chain : (files.makeChain (base.descend names).trimmed
          (base.descend names).parents).2.entryAt? location = files.entryAt? location ∨
          ∃ front, front ≠ [] ∧ front <+: names ∧ location = root ++ front := by
        rcases List.eq_nil_or_concat' names with rfl | ⟨before, inner, rfl⟩
        · exact .inl (by rw [Path.descend_nil, makeChain_trimmed reaches])
        · have whole : (base.descend (before ++ [inner])).trimmed =
              base.descend (before ++ [inner]) := by
            rw [Path.descend_concat, Path.trimmed_join (properNames inner (by simp))]
          rw [whole]
          exact hypothesis properNames (by simp)
      have longer : (∃ front, front ≠ [] ∧ front <+: names ∧ location = root ++ front) →
          ∃ front, front ≠ [] ∧ front <+: names ++ [name] ∧ location = root ++ front :=
        fun ⟨front, given, above, same⟩ => ⟨front, given, above.trans (List.prefix_append _ _), same⟩
      have extended : Extends files
          (files.makeChain (base.descend names).trimmed (base.descend names).parents).2 :=
        (makeChain_spec files _ _).1
      have put : ∀ {before : FileSystem}, (before.put (root ++ (names ++ [name]))
          .directory).entryAt? location = before.entryAt? location ∨
          ∃ front, front ≠ [] ∧ front <+: names ++ [name] ∧ location = root ++ front := by
        intro before
        rw [entryAt?_put (by simp)]
        by_cases here : location = root ++ (names ++ [name])
        · exact .inr ⟨_, by simp, List.prefix_refl _, here⟩
        · exact .inl (if_neg here)
      unfold makeDirectories
      rw [parents]
      rcases makeChain_cases files (base.descend (names ++ [name])) (base.descend names).trimmed
        (base.descend names).parents with same | made | same | made
      · exact .inl (by rw [same])
      · rw [(makeDirectory_descend unlinked reaches proper made).2]
        exact put
      · rw [same]
        exact chain.imp_right longer
      · have stillUnlinked := unlinked.of_settled fun below _ => extended.settled below
        rw [(makeDirectory_descend stillUnlinked (reaches.of_keeps extended.keeps) proper made).2]
        rcases put with same | inside
        · exact chain.imp same.trans longer
        · exact .inr inside

/-- What changes in a directory without links when the directory of some names, or else itself, is
made once more. -/
theorem entryAt?_makeDirectories_trimmed (unlinked : files.Unlinked root)
    (reaches : files.Reaches base root) (proper : ∀ part ∈ names, Path.IsName part)
    (location : Location) :
    (files.makeDirectories (base.descend names).trimmed).2.entryAt? location =
        files.entryAt? location ∨
      ∃ front, front ≠ [] ∧ front <+: names ∧ location = root ++ front := by
  rcases List.eq_nil_or_concat' names with rfl | ⟨before, last, rfl⟩
  · exact .inl (by rw [Path.descend_nil, makeDirectories_of_reaches reaches.trimmed])
  · have whole : (base.descend (before ++ [last])).trimmed = base.descend (before ++ [last]) := by
      rw [Path.descend_concat, Path.trimmed_join (proper last (by simp))]
    rw [whole]
    exact entryAt?_makeDirectories_descend unlinked reaches proper (by simp) location

end FileSystem

namespace SourceUnit

variable {files : FileSystem} {unit : SourceUnit} {base : Path} {root location : Location}
  {directories : List String} {name : String}

/-- The directory of a unit is that of the names before the last, below the output root. -/
theorem targetDirectory_eq (proper : ∀ part ∈ directories ++ [name], Path.IsName part)
    (placed : unit.relative = Path.descend ⟨""⟩ (directories ++ [name])) :
    unit.targetDirectory base = (base.descend directories).trimmed := by
  have last := proper name (by simp)
  rw [targetDirectory, target, placed, Path.join_descend proper (by simp), Path.descend_concat,
    Path.parent?, Path.parents_join last]
  rfl

/-- The inversion of writing: it fails after making directories, or puts the unit at its path. -/
theorem write_cases (unit : SourceUnit) (base : Path) (files : FileSystem) :
    (∃ error, unit.write base files =
        (.error error, (files.makeDirectories (unit.targetDirectory base)).2)) ∨
      ∃ later, (files.makeDirectories (unit.targetDirectory base)).2.replace (unit.target base)
          (clean unit.source) = .ok later ∧
        unit.write base files = (.ok (unit.target base), later) := by
  unfold write
  split
  · next error between made => exact .inl ⟨_, by rw [made]⟩
  · next between made =>
      split
      · next error failed => exact .inl ⟨_, by rw [made]⟩
      · next later replaced => exact .inr ⟨later, by rw [made]; exact replaced, rfl⟩

/-- What writing a unit changes, below an output root without links: the places of its directories,
and if it succeeds that of its file. -/
theorem entryAt?_write (unlinked : files.Unlinked root) (reaches : files.Reaches base root)
    (proper : ∀ part ∈ directories ++ [name], Path.IsName part)
    (placed : unit.relative = Path.descend ⟨""⟩ (directories ++ [name])) (location : Location) :
    (unit.write base files).2.entryAt? location = files.entryAt? location ∨
      (∃ front, front ≠ [] ∧ front <+: directories ∧ location = root ++ front) ∨
      location = root ++ (directories ++ [name]) ∧ ∃ path, (unit.write base files).1 = .ok path := by
  have properDirectories := (List.forall_mem_append.mp proper).1
  have chain :=
    FileSystem.entryAt?_makeDirectories_trimmed unlinked reaches properDirectories location
  rw [← targetDirectory_eq proper placed] at chain
  have extended := FileSystem.extends_makeDirectories files (unit.targetDirectory base)
  rcases write_cases unit base files with ⟨error, same⟩ | ⟨later, replaced, same⟩
  · rw [same]
    exact chain.imp_right .inl
  · rw [same]
    have relative : unit.relative.isAbsolute = false := by
      rw [placed, Path.isAbsolute_descend proper]
      rfl
    have whole : FileSystem.pieces unit.relative = directories ++ [name] := by
      rw [placed, FileSystem.pieces_descend proper (by simp)]
    have stillUnlinked := unlinked.of_settled fun below _ => extended.settled below
    obtain ⟨slot, found, named, _, rfl⟩ := FileSystem.replace_eq_ok replaced
    obtain ⟨_, there, _⟩ := FileSystem.slot_of_join stillUnlinked
      (reaches.of_keeps extended.keeps) proper relative whole found named
    by_cases own : location = root ++ (directories ++ [name])
    · exact .inr (.inr ⟨own, _, rfl⟩)
    · rw [there, FileSystem.entryAt?_put (by simp), if_neg own]
      exact chain.imp_right .inl

end SourceUnit

end SchemaBeans
