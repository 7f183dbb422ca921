import SchemaBeans.Output
import SchemaBeans.Proofs.Places

/-!
# What writing changes

Directories are only ever added, and a unit changes one location besides: that of
its file. Where no links are below the output root, this is the location of the
root with the names of the unit's path behind it.
-/

namespace SchemaBeans

namespace FileSystem

variable {files before between after later : FileSystem} {location other : Location}
  {entry : Entry} {path : Path}

/-- What is put at a location is found there, and elsewhere what was there before. -/
theorem entryAt?_put (proper : location ≠ []) :
    (files.put location entry).entryAt? other =
      if other = location then some entry else files.entryAt? other := by
  unfold FileSystem.put FileSystem.entryAt?
  by_cases root : other = []
  · simp [root, proper.symm]
  · simp [root, Keyed.lookup_set]

/-- What is at a location stays there; where nothing is, a directory may be made. -/
def Settled (before after : FileSystem) (location : Location) : Prop :=
  after.entryAt? location = before.entryAt? location ∨
    before.entryAt? location = none ∧ after.entryAt? location = some .directory

/-- A location that is settled by two changes is settled by both together. -/
theorem Settled.trans (first : Settled before between location)
    (second : Settled between after location) : Settled before after location := by
  rcases first with same | ⟨none, made⟩
  · rcases second with stays | ⟨none, made⟩
    · exact .inl (stays.trans same)
    · exact .inr ⟨same ▸ none, made⟩
  · rcases second with stays | ⟨gone, _⟩
    · exact .inr ⟨none, stays.trans made⟩
    · rw [made] at gone
      cases gone

/-- What was there is still there. -/
theorem Settled.entryAt? (settled : Settled before after location)
    (found : before.entryAt? location = some entry) : after.entryAt? location = some entry := by
  rcases settled with same | ⟨none, _⟩
  · exact same.trans found
  · rw [none] at found
    cases found

/-- Nothing but directories was added. -/
structure Extends (before after : FileSystem) : Prop where
  workDir : after.workDir = before.workDir
  settled : ∀ location, Settled before after location

theorem Extends.refl (files : FileSystem) : Extends files files := ⟨rfl, fun _ => .inl rfl⟩

/-- Adding directories twice is adding directories. -/
theorem Extends.trans (first : Extends before between) (second : Extends between after) :
    Extends before after :=
  ⟨second.workDir.trans first.workDir,
    fun location => (first.settled location).trans (second.settled location)⟩

/-- Where nothing but directories was added, everything that was there is kept. -/
theorem Extends.keeps (extended : Extends before after) : Keeps before after :=
  ⟨extended.workDir, fun location => (extended.settled location).entryAt?,
    fun location _ => (extended.settled location).entryAt?⟩

/-- All directories and links are left where only one location changes, at which none was. -/
theorem keeps_of_settled (workDir : after.workDir = before.workDir)
    (free : before.entryAt? location = none ∨
      ∃ content, before.entryAt? location = some (.file content))
    (settled : ∀ other, other ≠ location → Settled before after other) : Keeps before after := by
  have stays {other : Location} {entry : Entry} (found : before.entryAt? other = some entry)
      (noFile : ∀ content, entry ≠ .file content) : after.entryAt? other = some entry := by
    refine (settled other ?_).entryAt? found
    rintro rfl
    rcases free with none | ⟨content, file⟩
    · rw [none] at found
      cases found
    · rw [file] at found
      exact noFile content (Option.some.inj found).symm
  exact ⟨workDir, fun other found => stays found (by simp),
    fun other target found => stays found (by simp)⟩

/-- There are still no links where everything is settled. -/
theorem Unlinked.of_settled (unlinked : before.Unlinked location)
    (settled : ∀ below, location <+: below → Settled before after below) :
    after.Unlinked location := by
  intro below inside target linked
  rcases settled below inside with same | ⟨_, made⟩
  · exact unlinked below inside target (same ▸ linked)
  · rw [made] at linked
    cases linked

/-- A directory that is made takes a vacant place. -/
theorem makeDirectory_eq_ok (made : files.makeDirectory path = .ok later) :
    ∃ slot, files.slot path = .ok slot ∧ IsEntryName slot.name ∧
      files.entryAt? slot.location = none ∧ later = files.put slot.location .directory := by
  unfold FileSystem.makeDirectory at made
  split at made
  · cases made
  · next slot found =>
      split at made
      · cases made
      · next proper =>
          split at made
          · cases made
          · next short =>
              split at made
              · cases made
              · next vacant =>
                  cases made
                  refine ⟨slot, found, ?_, vacant, rfl⟩
                  constructor <;> simp_all [Slot.isStep]

/-- The place for an entry is not the root. -/
theorem location_ne_nil (slot : Slot) : slot.location ≠ [] := by
  simp [Slot.location]

/-- Making a directory adds nothing else. -/
theorem extends_makeDirectory (made : files.makeDirectory path = .ok later) :
    Extends files later := by
  obtain ⟨slot, _, _, vacant, rfl⟩ := makeDirectory_eq_ok made
  refine ⟨rfl, fun location => ?_⟩
  unfold Settled
  rw [entryAt?_put (location_ne_nil slot)]
  by_cases same : location = slot.location
  · exact .inr ⟨same ▸ vacant, if_pos same⟩
  · exact .inl (if_neg same)

/-- A path leads to the directory that was made at it. -/
theorem isDirectory_makeDirectory (made : files.makeDirectory path = .ok later) :
    later.isDirectory path = true := by
  have extended := extends_makeDirectory made
  obtain ⟨slot, found, named, _, rfl⟩ := makeDirectory_eq_ok made
  obtain ⟨allowed, front, closing, left, _, whole, blank, leads, _⟩ :=
    exists_leads_of_slot found named.ne_empty
  have there : (files.put slot.location .directory).entryAt? slot.location = some .directory := by
    rw [entryAt?_put (location_ne_nil slot), if_pos rfl]
  have down : Leads (files.put slot.location .directory) left (slot.name :: closing) slot.directory
      left slot.location := .enter named there (leads_steps fun piece inside => .inl (blank piece inside))
  have walked : (files.put slot.location .directory).walk false left
      (slot.name :: closing) slot.directory = .ok (.found slot.location .directory) := by
    rw [← List.append_nil (slot.name :: closing), walk_of_leads down, FileSystem.walk, there]
  have finds := find_of_leads allowed (leads.of_keeps extended.keeps) rfl whole walked
  simp [FileSystem.isDirectory, finds]

/-- A directory that is ensured is there afterwards, and nothing else was added. -/
theorem ensureDirectory_spec (ensured : files.ensureDirectory path = .ok later) :
    Extends files later ∧ later.isDirectory path = true := by
  unfold FileSystem.ensureDirectory at ensured
  split at ensured
  · next made =>
      cases ensured
      exact ⟨extends_makeDirectory made, isDirectory_makeDirectory made⟩
  · split at ensured
    · next there =>
        cases ensured
        exact ⟨.refl files, there⟩
    · cases ensured

/-- A chain of directories only adds some, and ends with a directory at its path, unless the path is
empty. -/
theorem makeChain_spec (files : FileSystem) (path : Path) (parents : List Path) :
    Extends files (files.makeChain path parents).2 ∧
      ((files.makeChain path parents).1 = .ok () →
        path.text.isEmpty ∨ (files.makeChain path parents).2.isDirectory path = true) := by
  fun_induction FileSystem.makeChain files path parents with
  | case1 path parents empty => exact ⟨.refl files, fun _ => .inl empty⟩
  | case2 path parents _ later made =>
      exact ⟨extends_makeDirectory made, fun _ => .inr (isDirectory_makeDirectory made)⟩
  | case3 => exact ⟨.refl files, fun ended => by cases ended⟩
  | case4 path _ _ parent parents error later failed hypothesis =>
      rw [failed] at hypothesis
      exact ⟨hypothesis.1, fun ended => by cases ended⟩
  | case5 path _ _ parent parents between chained later ensured hypothesis =>
      rw [chained] at hypothesis
      obtain ⟨extended, there⟩ := ensureDirectory_spec ensured
      exact ⟨hypothesis.1.trans extended, fun _ => .inr there⟩
  | case6 path _ _ parent parents between chained error failed hypothesis =>
      rw [chained] at hypothesis
      exact ⟨hypothesis.1, fun ended => by cases ended⟩
  | case7 path parents _ error _ _ there => exact ⟨.refl files, fun _ => .inr there⟩
  | case8 => exact ⟨.refl files, fun ended => by cases ended⟩

/-- Making directories only adds some, whether it succeeds or not. -/
theorem extends_makeDirectories (files : FileSystem) (path : Path) :
    Extends files (files.makeDirectories path).2 :=
  (makeChain_spec files path path.parents).1

/-- The location of a directory that a path leads to once it was made, with all that was missing on
the way to it. The empty path stands for the working directory. -/
def madeDirectory? (files : FileSystem) (path : Path) : Option Location :=
  if path.text.isEmpty then some files.workDir
  else
    match (files.makeDirectories path).2.find path with
    | .ok (location, .directory) => some location
    | _ => none

/-- A path leads to the directory that was made at it. -/
theorem exists_madeDirectory (made : files.makeDirectories path = (.ok (), later)) :
    ∃ location, files.madeDirectory? path = some location ∧ later.Reaches path location := by
  obtain ⟨extended, there⟩ := makeChain_spec files path path.parents
  have ended := congrArg Prod.snd made
  simp only [FileSystem.makeDirectories] at made ended
  unfold FileSystem.madeDirectory?
  by_cases empty : path.text.isEmpty = true
  · have blank : path = ⟨""⟩ := congrArg Path.mk (String.isEmpty_iff.mp empty)
    subst blank
    rw [ended] at extended
    refine ⟨files.workDir, rfl, ?_⟩
    rw [← extended.workDir]
    exact reaches_empty
  · rw [made] at there
    have directory := (there rfl).resolve_left empty
    unfold FileSystem.isDirectory at directory
    split at directory
    · next location found =>
        refine ⟨location, ?_, reaches_of_find found⟩
        simp [empty, FileSystem.makeDirectories, ended, found]
    · cases directory

/-- A text stands in a file below a directory, and only directories are on the way to it. -/
structure Holds (files : FileSystem) (root : Location) (names : List String) (text : String) :
    Prop where
  given : names ≠ []
  named : ∀ name ∈ names, IsEntryName name
  directories : ∀ front, front ≠ [] → front ≠ names → front <+: names →
    files.entryAt? (root ++ front) = some .directory
  file : files.entryAt? (root ++ names) = some (.file (.text text))

variable {root : Location} {names : List String} {text : String} {base tail : Path}

/-- A text that stands below a directory is found at the path that the names make up. -/
theorem Holds.find (holds : files.Holds root names text) (reaches : files.Reaches base root)
    (relative : tail.isAbsolute = false) (whole : pieces tail = names)
    (allowed : refusal? (base.join tail) = none) :
    files.find (base.join tail) = .ok (root ++ names, .file (.text text)) := by
  obtain ⟨front, left, joined, leads⟩ := reaches.exists_front relative
  obtain ⟨directories, name, rfl⟩ := (List.eq_nil_or_concat' names).resolve_left holds.given
  have named := List.forall_mem_append.mp holds.named
  have down : Leads files left directories root left (root ++ directories) := by
    refine leads_straight named.1 fun front given above => ?_
    have shorter : front ≠ directories ++ [name] := by
      rintro rfl
      have length := above.length_le
      rw [List.length_append] at length
      exact absurd length (by simp)
    exact holds.directories front given shorter (above.trans (List.prefix_append _ _))
  have there : files.entryAt? (root ++ directories ++ [name]) = some (.file (.text text)) := by
    rw [List.append_assoc]
    exact holds.file
  have walked : files.walk false left (directories ++ [name]) root =
      .ok (.found (root ++ (directories ++ [name])) (.file (.text text))) := by
    rw [walk_of_leads down, walk_cons (named.2 name (List.mem_singleton_self name)), there,
      List.append_assoc]
    rfl
  exact find_of_leads allowed leads rfl (joined.trans (by rw [whole])) walked

/-- A text that stands below a directory stays there while nothing but other places changes. -/
theorem Holds.of_keeps (keeps : Keeps before after) (holds : before.Holds root names text)
    (same : after.entryAt? (root ++ names) = before.entryAt? (root ++ names)) :
    after.Holds root names text :=
  ⟨holds.given, holds.named,
    fun front given other above => keeps.directory _ (holds.directories front given other above),
    same.trans holds.file⟩

/-- A text was put into a file below a directory. Where the file is, no directory and no link was;
elsewhere nothing but directories was added. -/
structure Puts (before after : FileSystem) (root : Location) (names : List String)
    (text : String) : Prop where
  workDir : after.workDir = before.workDir
  holds : after.Holds root names text
  replaced : before.entryAt? (root ++ names) = none ∨
    ∃ content, before.entryAt? (root ++ names) = some (.file content)
  settled : ∀ location, location ≠ root ++ names → Settled before after location

/-- Putting a text into a file leaves all directories and links. -/
theorem Puts.keeps (puts : Puts before after root names text) : Keeps before after :=
  keeps_of_settled puts.workDir puts.replaced puts.settled

/-- A finished file can be put at the slot of a path if its name is an entry's, with no separator
behind it and no directory there. -/
theorem fileSlot_eq_ok_iff {slot : Slot} :
    files.fileSlot path = .ok slot ↔
      files.slot path = .ok slot ∧ IsEntryName slot.name ∧ slot.closed = false ∧
        files.entryAt? slot.location ≠ some .directory := by
  unfold FileSystem.fileSlot
  constructor
  · intro given
    split at given
    · cases given
    · next found =>
        split at given
        · cases given
        · next proper =>
            split at given
            · cases given
            · next short =>
                split at given
                · cases given
                · next unclosed =>
                    split at given
                    · cases given
                    · next noDirectory =>
                        cases given
                        refine ⟨found, ?_, by simpa using unclosed, noDirectory⟩
                        constructor <;> simp_all [Slot.isStep]
  · rintro ⟨found, named, unclosed, noDirectory⟩
    have proper : slot.isStep = false := by
      simp [Slot.isStep, named.ne_empty, named.ne_here, named.ne_up]
    simp only [found, proper, Nat.not_lt.mpr named.short, unclosed, Bool.false_eq_true, if_false]

/-- A text is put where a path has a place for a file, and nowhere else. -/
theorem replace_eq_ok_iff :
    files.replace path text = .ok later ↔
      ∃ slot, files.fileSlot path = .ok slot ∧
        files.put slot.location (.file (.text text)) = later := by
  unfold FileSystem.replace
  cases files.fileSlot path <;> simp [Except.map]

/-- What replaces a file or fills a vacant place is in the path's slot. -/
theorem replace_eq_ok (replaced : files.replace path text = .ok later) :
    ∃ slot, files.slot path = .ok slot ∧ IsEntryName slot.name ∧
      files.entryAt? slot.location ≠ some .directory ∧
      later = files.put slot.location (.file (.text text)) := by
  obtain ⟨slot, fits, rfl⟩ := replace_eq_ok_iff.mp replaced
  obtain ⟨found, named, _, noDirectory⟩ := fileSlot_eq_ok_iff.mp fits
  exact ⟨slot, found, named, noDirectory, rfl⟩

/-- A name at the end of a path is in the slot of the path. -/
theorem eq_of_append_blank {front before closing : List String} {name other : String}
    (given : name ≠ "") (blank : ∀ piece ∈ closing, piece = "")
    (same : front ++ [name] = before ++ other :: closing) : before = front ∧ other = name := by
  rcases List.eq_nil_or_concat' closing with rfl | ⟨inner, last, rfl⟩
  · obtain ⟨fronts, names⟩ := List.append_inj' same rfl
    exact ⟨fronts.symm, (List.singleton_inj.mp names).symm⟩
  · rw [← List.cons_append, ← List.append_assoc] at same
    have ends := List.singleton_inj.mp (List.append_inj' same rfl).2
    exact absurd (ends.trans (blank last (by simp))) given

/-- Where no links are, the slot of a path of names is the last of them, and the others are
directories on the way to it. -/
theorem slot_of_join {slot : Slot} {directories : List String} {name : String}
    (unlinked : files.Unlinked root) (reaches : files.Reaches base root)
    (proper : ∀ part ∈ directories ++ [name], Path.IsName part)
    (relative : tail.isAbsolute = false) (whole : pieces tail = directories ++ [name])
    (found : files.slot (base.join tail) = .ok slot) (named : IsEntryName slot.name) :
    refusal? (base.join tail) = none ∧ slot.location = root ++ (directories ++ [name]) ∧
      (∀ part ∈ directories ++ [name], IsEntryName part) ∧
      ∀ front, front ≠ [] → front <+: directories →
        files.entryAt? (root ++ front) = some .directory := by
  obtain ⟨allowed, before, closing, last, _, parts, blank, leads, _⟩ :=
    exists_leads_of_slot found named.ne_empty
  obtain ⟨front, left, joined, start⟩ := reaches.exists_front relative
  obtain ⟨properDirectories, own⟩ := List.forall_mem_append.mp proper
  have last := own name (List.mem_singleton_self name)
  rw [joined, whole, ← List.append_assoc] at parts
  obtain ⟨rfl, sameName⟩ := eq_of_append_blank last.ne_empty blank parts
  obtain ⟨sameDirectory, short, within⟩ :=
    (start.of_append leads).straight unlinked (List.prefix_refl root) properDirectories
  refine ⟨allowed, ?_, ?_, within⟩
  · rw [Slot.location, sameDirectory, sameName, List.append_assoc]
  · exact List.forall_mem_append.mpr ⟨short, by simpa using sameName ▸ named⟩

/-- Where no links are, a path of names is replaced at the location that the names make up. -/
theorem puts_of_replace (unlinked : files.Unlinked root) (reaches : files.Reaches base root)
    (proper : ∀ name ∈ names, Path.IsName name) (given : names ≠ [])
    (relative : tail.isAbsolute = false) (whole : pieces tail = names)
    (replaced : files.replace (base.join tail) text = .ok later) :
    refusal? (base.join tail) = none ∧ Puts files later root names text := by
  obtain ⟨slot, found, named, noDirectory, rfl⟩ := replace_eq_ok replaced
  obtain ⟨directories, name, rfl⟩ := (List.eq_nil_or_concat' names).resolve_left given
  obtain ⟨allowed, there, short, within⟩ :=
    slot_of_join unlinked reaches proper relative whole found named
  have proper : root ++ (directories ++ [name]) ≠ [] := by simp
  rw [there] at noDirectory ⊢
  refine ⟨allowed, rfl, ⟨given, short, ?_, ?_⟩, ?_, ?_⟩
  · intro front given other above
    have inside := (List.prefix_concat_iff.mp above).resolve_left other
    rw [entryAt?_put proper, if_neg (by simpa using other)]
    exact within front given inside
  · rw [entryAt?_put proper, if_pos rfl]
  · cases found : files.entryAt? (root ++ (directories ++ [name])) with
    | none => exact .inl rfl
    | some entry =>
        cases entry with
        | file content => exact .inr ⟨content, rfl⟩
        | link target => exact absurd found (unlinked _ (List.prefix_append _ _) target)
        | directory => exact absurd found noDirectory
  · intro location other
    exact .inl (by rw [entryAt?_put proper, if_neg other])

end FileSystem

namespace SourceUnit

variable {files later : FileSystem} {unit : SourceUnit} {base path : Path} {root : Location}
  {names : List String}

/-- A unit that is written stands below the output root, and nothing else changes but for
directories. -/
theorem puts_of_write (unlinked : files.Unlinked root) (reaches : files.Reaches base root)
    (proper : ∀ name ∈ names, Path.IsName name) (given : names ≠ [])
    (placed : unit.relative = Path.descend ⟨""⟩ names)
    (written : unit.write base files = (.ok path, later)) :
    path = unit.target base ∧ FileSystem.refusal? path = none ∧
      FileSystem.Puts files later root names (clean unit.source) := by
  have extended := FileSystem.extends_makeDirectories files (unit.targetDirectory base)
  have relative : unit.relative.isAbsolute = false := by
    rw [placed, Path.isAbsolute_descend proper]
    rfl
  have whole : FileSystem.pieces unit.relative = names := by
    rw [placed, FileSystem.pieces_descend proper given]
  unfold SourceUnit.write at written
  split at written
  · cases written
  · next between made =>
      rw [made] at extended
      split at written
      · cases written
      · next replaced =>
          cases written
          have stillUnlinked := unlinked.of_settled fun below _ => extended.settled below
          obtain ⟨allowed, puts⟩ := FileSystem.puts_of_replace stillUnlinked
            (reaches.of_keeps extended.keeps) proper given relative whole replaced
          refine ⟨rfl, allowed, puts.workDir.trans extended.workDir, puts.holds, ?_, ?_⟩
          · rcases extended.settled (root ++ names) with same | ⟨none, _⟩
            · rw [← same]
              exact puts.replaced
            · exact .inl none
          · intro location other
            exact (extended.settled location).trans (puts.settled location other)

end SourceUnit

end SchemaBeans
