import Mathlib.Data.Fintype.EquivFin
import SchemaBeans.Proofs.Repeating

/-!
# Writing by way of a staging file

A source is not written at its path: a fresh file beside it is filled, and then moved
over what stood there. `SourceUnit.Course` is every way that this can go, with an exit
behind each step. Whatever the exit, the files that were there before are untouched,
save for the one that the move replaces; and what was staged is gone.
-/

namespace SchemaBeans

namespace FileSystem

/-- Nothing is at a location, nor below it. -/
def IsFree (files : FileSystem) (location : Location) : Prop :=
  ∀ listed ∈ files.entries, ¬ location <+: listed.1

/-- Moves what is at a location to a path in one step. A file or a link at the path is replaced. -/
def rename (files : FileSystem) (source : Location) (path : Path) : Except AccessError FileSystem :=
  match files.entryAt? source with
  | none => .error .missing
  | some entry => (files.fileSlot path).map fun slot => (files.erase source).put slot.location entry

/-- Some directories are made, one after the other. -/
inductive MakesSome (files : FileSystem) : FileSystem → Prop where
  | none : MakesSome files files
  | make {between later path} (first : MakesSome files between)
      (made : between.makeDirectory path = .ok later) : MakesSome files later

/-- A path denotes an entry: its last piece is the name of the entry, in the directory that the
pieces before it lead to. -/
structure Denotes (files : FileSystem) (path : Path) (front : List String) (location : Location) :
    Prop where
  allowed : refusal? path = none
  leads : ∃ name left directory, pieces path = front ++ [name] ∧ IsEntryName name ∧
    Leads files linkLimit front (origin path files.workDir) left directory ∧
    location = directory ++ [name]

/-- On the way of some pieces, the link at a place is followed. -/
inductive Follows (files : FileSystem) (place : Location) :
    Nat → List String → Location → Prop where
  | own {links piece rest here target} (named : IsEntryName piece)
      (found : files.entryAt? (here ++ [piece]) = some (.link target))
      (same : here ++ [piece] = place) : Follows files place (links + 1) (piece :: rest) here
  | stay {links piece rest here} (step : piece = "" ∨ piece = ".")
      (later : Follows files place links rest here) : Follows files place links (piece :: rest) here
  | up {links rest here} (later : Follows files place links rest here.dropLast) :
      Follows files place links (".." :: rest) here
  | enter {links piece rest here} (named : IsEntryName piece)
      (found : files.entryAt? (here ++ [piece]) = some .directory)
      (later : Follows files place links rest (here ++ [piece])) :
      Follows files place links (piece :: rest) here
  | follow {links piece rest here target} (named : IsEntryName piece)
      (found : files.entryAt? (here ++ [piece]) = some (.link target)) (given : target.text ≠ "")
      (later : Follows files place links (pieces target ++ rest) (origin target here)) :
      Follows files place (links + 1) (piece :: rest) here

variable {files before after : FileSystem} {location stage place here there : Location}
  {path : Path} {slot : Slot} {entry : Entry} {content : Content} {links left : Nat}
  {front rest trail : List String}

/-- Making some directories adds nothing else. -/
theorem MakesSome.extends (made : MakesSome before after) : Extends before after := by
  induction made with
  | none => exact .refl _
  | make _ made hypothesis => exact hypothesis.trans (extends_makeDirectory made)

/-- Making the directories of a path makes some of them one by one, also where that fails. -/
theorem makesSome_makeDirectories (files : FileSystem) (path : Path) :
    MakesSome files (files.makeDirectories path).2 :=
  makeChain_preserves .make .none path path.parents

section Free

/-- Nothing is at a free location. -/
theorem IsFree.entryAt?_eq_none (free : files.IsFree location) (proper : location ≠ []) :
    files.entryAt? location = none := by
  cases found : files.entryAt? location with
  | none => rfl
  | some entry =>
      exact absurd (List.prefix_refl location) (free _ (mem_entries_of_entryAt? found proper))

/-- What was put at a free location leaves no trace when it is removed. -/
theorem IsFree.erase_put (free : files.IsFree location) (proper : location ≠ []) :
    (files.put location entry).erase location = files := by
  have fresh : files.entries.lookup location = none := by
    have nothing := free.entryAt?_eq_none proper
    rwa [FileSystem.entryAt?, if_neg proper] at nothing
  have added : Keyed.set location entry files.entries = files.entries ++ [(location, entry)] := by
    have behind := Keyed.set_append fresh entry []
    rwa [List.append_nil] at behind
  have kept :
      files.entries.filter (fun listed => !location.isPrefixOf listed.1) = files.entries := by
    apply List.filter_eq_self.mpr
    intro listed inside
    simpa [← List.isPrefixOf_iff_prefix] using free listed inside
  simp [put, erase, added, kept]

/-- In every directory there is a free name. -/
theorem exists_isFree (files : FileSystem) (directory : Location) :
    ∃ name, files.IsFree (directory ++ [name]) := by
  obtain ⟨name, fresh⟩ := Infinite.exists_notMem_finset
    (files.entries.map fun listed => listed.1.getD directory.length "").toFinset
  refine ⟨name, ?_⟩
  rintro listed inside ⟨below, same⟩
  apply fresh
  refine List.mem_toFinset.mpr (List.mem_map.mpr ⟨listed, inside, ?_⟩)
  simp [← same]

end Free

section Denoting

/-- The root is a directory. -/
theorem ne_nil_of_ne_directory (noDirectory : files.entryAt? place ≠ some .directory) :
    place ≠ [] := by
  rintro rfl
  exact noDirectory rfl

/-- A file that is put at a place takes no directory's place. -/
theorem entryAt?_put_directory (noDirectory : files.entryAt? place ≠ some .directory)
    (found : files.entryAt? location = some .directory) :
    (files.put place (.file content)).entryAt? location = some .directory := by
  rw [entryAt?_put (ne_nil_of_ne_directory noDirectory), if_neg, found]
  rintro rfl
  exact noDirectory found

/-- Pieces that do not follow the link at a place lead where they led when a file is put there. -/
theorem Leads.put (leads : Leads files links front here left there)
    (noDirectory : files.entryAt? place ≠ some .directory)
    (apart : ¬ Follows files place links front here) :
    Leads (files.put place (.file content)) links front here left there := by
  have proper := ne_nil_of_ne_directory noDirectory
  induction leads with
  | done => exact .done
  | stay step _ hypothesis => exact .stay step (hypothesis fun later => apart (.stay step later))
  | up _ hypothesis => exact .up (hypothesis fun later => apart (.up later))
  | enter named found _ hypothesis =>
      exact .enter named (entryAt?_put_directory noDirectory found)
        (hypothesis fun later => apart (.enter named found later))
  | @follow links piece rest here left there target named found given _ hypothesis =>
      have other : here ++ [piece] ≠ place := fun same => apart (.own named found same)
      refine .follow named ?_ given
        (hypothesis fun later => apart (.follow named found given later))
      rw [entryAt?_put proper, if_neg other, found]

/-- Pieces that follow the link at a place lead nowhere when a file is put there. -/
theorem Follows.walk_put (follows : Follows files place links trail here)
    (noDirectory : files.entryAt? place ≠ some .directory) (further : rest ≠ []) :
    (files.put place (.file content)).walk false links (trail ++ rest) here =
      .error .notDirectory := by
  have proper := ne_nil_of_ne_directory noDirectory
  -- A file ends the walk, since something is left to be walked behind it.
  have stops {links : Nat} {piece : String} {behind : List String} {here : Location}
      (named : IsEntryName piece) (same : here ++ [piece] = place) :
      (files.put place (.file content)).walk false links (piece :: behind ++ rest) here =
        .error .notDirectory := by
    rw [List.cons_append, walk_cons named, entryAt?_put proper, if_pos same]
    simp [further]
  induction follows with
  | own named _ same => exact stops named same
  | stay step _ hypothesis => rw [List.cons_append, walk_stay step, hypothesis]
  | up _ hypothesis => rw [List.cons_append, walk_up, hypothesis]
  | enter named found _ hypothesis =>
      rw [List.cons_append, walk_cons named, entryAt?_put_directory noDirectory found, hypothesis]
  | @follow links piece behind here target named found given _ hypothesis =>
      by_cases same : here ++ [piece] = place
      · exact stops named same
      · rw [List.cons_append, walk_cons named, entryAt?_put proper, if_neg same, found,
          ← hypothesis, List.append_assoc]
        simp [given]

/-- A file that is put at the entry of a path is found at the path, unless the way of the path
follows a link that was there. -/
theorem Denotes.find_put (denotes : files.Denotes path front location)
    (noDirectory : files.entryAt? location ≠ some .directory)
    (apart : ¬ Follows files location linkLimit front (origin path files.workDir)) :
    (files.put location (.file content)).find path = .ok (location, .file content) := by
  obtain ⟨allowed, name, left, directory, whole, named, leads, rfl⟩ := denotes
  refine find_of_leads allowed (leads.put noDirectory apart) rfl whole ?_
  rw [walk_cons named, entryAt?_put (by simp), if_pos rfl]
  rfl

/-- A path whose way follows a link leads nowhere when a file is put there. -/
theorem Denotes.find_put_of_follows (denotes : files.Denotes path front location)
    (noDirectory : files.entryAt? location ≠ some .directory)
    (follows : Follows files location linkLimit front (origin path files.workDir)) :
    (files.put location (.file content)).find path = .error .notDirectory := by
  obtain ⟨allowed, name, left, directory, whole, _⟩ := denotes
  have walked : (files.put location (.file content)).walk false linkLimit (front ++ [name])
      (origin path files.workDir) = .error .notDirectory := follows.walk_put noDirectory (by simp)
  simp only [FileSystem.find, FileSystem.place, allowed, whole]
  rw [show (files.put location (.file content)).workDir = files.workDir from rfl, walked]

/-- A slot is closed when its path ends with a separator. -/
theorem closed_of_slot (found : files.slot path = .ok slot) :
    slot.closed = decide ((pieces path).getLast? = some "") := by
  unfold FileSystem.slot at found
  split at found
  · cases found
  · simp only at found
    split at found
    · cases found
      rfl
    · cases found
    · cases found

/-- A path denotes the entry in its slot, where a file can be put. -/
theorem exists_denotes (fits : files.fileSlot path = .ok slot) :
    ∃ front, files.Denotes path front slot.location := by
  obtain ⟨found, named, unclosed, _⟩ := fileSlot_eq_ok_iff.mp fits
  obtain ⟨allowed, front, closing, left, _, whole, blank, leads, _⟩ :=
    exists_leads_of_slot found named.ne_empty
  have single : closing = [] := by
    rcases List.eq_nil_or_concat' closing with none | ⟨inner, last, rfl⟩
    · exact none
    · have ends : (pieces path).getLast? = some "" := by
        rw [whole, blank last (by simp), ← List.cons_append, ← List.append_assoc,
          List.getLast?_concat]
      rw [closed_of_slot found, ends] at unclosed
      simp at unclosed
  subst single
  exact ⟨front, allowed, slot.name, left, slot.directory, whole, named, leads, rfl⟩

/-- A path denotes the same entry as long as directories and links are kept. -/
theorem Denotes.of_keeps (keeps : Keeps before after)
    (denotes : before.Denotes path front location) : after.Denotes path front location := by
  obtain ⟨allowed, name, left, directory, whole, named, leads, there⟩ := denotes
  refine ⟨allowed, name, left, directory, whole, named, ?_, there⟩
  rw [keeps.workDir]
  exact leads.of_keeps keeps

end Denoting

section Moving

/-- Directories and links that are there once a file was put were there before. -/
theorem keeps_of_put_file (proper : location ≠ []) :
    Keeps (files.put location (.file content)) files := by
  have stays {other : Location} {entry : Entry} (noFile : entry ≠ .file content)
      (found : (files.put location (.file content)).entryAt? other = some entry) :
      files.entryAt? other = some entry := by
    rw [entryAt?_put proper] at found
    split at found
    · exact absurd (Option.some.inj found).symm noFile
    · exact found
  exact ⟨rfl, fun _ => stays (by simp), fun _ _ => stays (by simp)⟩

/-- A file that fills a vacant place is in the way of nothing that was found. -/
theorem walk_put (vacant : files.entryAt? stage = none) (proper : stage ≠ [])
    (walked : files.walk false links trail here = .ok (.found location entry)) :
    (files.put stage (.file content)).walk false links trail here = .ok (.found location entry) := by
  have keeps : Keeps files (files.put stage (.file content)) := by
    refine keeps_of_settled rfl (.inl vacant) fun other apart => .inl ?_
    rw [entryAt?_put proper, if_neg apart]
  rw [walk_eq_of_comes keeps, walked]
  intro place comes
  obtain rfl := comes.eq_of_walk walked
  rw [entryAt?_put proper, if_neg]
  rintro rfl
  rw [entryAt?_of_walk walked] at vacant
  cases vacant

/-- A file that fills a vacant place leaves every slot where it was. -/
theorem slot_put (vacant : files.entryAt? stage = none) (proper : stage ≠ [])
    (found : files.slot path = .ok slot) :
    (files.put stage (.file content)).slot path = .ok slot := by
  have workDir : (files.put stage (.file content)).workDir = files.workDir := rfl
  unfold FileSystem.slot at found ⊢
  split at found
  · cases found
  · simp only [workDir] at found ⊢
    split at found
    · next directory entry walked =>
        rw [walk_put vacant proper walked]
        exact found
    · cases found
    · cases found

/-- A file at a free location is in the way of no finished file. -/
theorem fileSlot_put (free : files.IsFree stage) (proper : stage ≠ [])
    (fits : files.fileSlot path = .ok slot) :
    (files.put stage (.file content)).fileSlot path = .ok slot := by
  obtain ⟨found, named, unclosed, noDirectory⟩ := fileSlot_eq_ok_iff.mp fits
  have still : (files.put stage (.file content)).slot path = .ok slot :=
    slot_put (free.entryAt?_eq_none proper) proper found
  refine fileSlot_eq_ok_iff.mpr ⟨still, named, unclosed, ?_⟩
  rw [entryAt?_put proper]
  split
  · simp
  · exact noDirectory

/-- Moving a staged file to a path puts what it holds into the path's slot. -/
theorem rename_put_eq_ok_iff (free : files.IsFree stage) (proper : stage ≠ []) :
    (files.put stage (.file content)).rename stage path = .ok after ↔
      ∃ slot, (files.put stage (.file content)).fileSlot path = .ok slot ∧
        files.put slot.location (.file content) = after := by
  have there : (files.put stage (.file content)).entryAt? stage = some (.file content) := by
    rw [entryAt?_put proper, if_pos rfl]
  unfold FileSystem.rename
  rw [there]
  simp only [free.erase_put proper]
  cases (files.put stage (.file content)).fileSlot path <;> simp [Except.map]

/-- What a move replaces is the entry of its path. -/
theorem exists_denotes_of_rename (free : files.IsFree stage) (proper : stage ≠ [])
    (moved : (files.put stage (.file content)).rename stage path = .ok after) :
    ∃ front location, files.Denotes path front location ∧
      files.entryAt? location ≠ some .directory ∧ after = files.put location (.file content) := by
  obtain ⟨slot, fits, rfl⟩ := (rename_put_eq_ok_iff free proper).mp moved
  obtain ⟨front, denotes⟩ := exists_denotes fits
  refine ⟨front, slot.location, denotes.of_keeps (keeps_of_put_file proper), ?_, rfl⟩
  intro directory
  have vacant := (fileSlot_eq_ok_iff.mp fits).2.2.2
  rw [entryAt?_put proper] at vacant
  split at vacant
  · next same =>
      rw [same, free.entryAt?_eq_none proper] at directory
      cases directory
  · exact vacant directory

end Moving

end FileSystem

namespace SourceUnit

open FileSystem (MakesSome IsFree Denotes Follows Settled Extends linkLimit origin)

/-- A staging file can be made for a unit, beside the place of its file: the directories are there,
and nothing has the name of the staging file. -/
structure Stages (unit : SourceUnit) (root : Path) (files between : FileSystem) (stage : Location) :
    Prop where
  made : files.makeDirectories (unit.targetDirectory root) = (.ok (), between)
  beside : ∃ directory name,
    files.madeDirectory? (unit.targetDirectory root) = some directory ∧ stage = directory ++ [name]
  fresh : between.IsFree stage

/-- A way for a unit to be written, with its outcome. Each step may fail with any error; a staging
file is removed when the step with it fails. -/
inductive Course (unit : SourceUnit) (root : Path) (files : FileSystem) :
    Except WriteError Path × FileSystem → Prop where
  /-- Not all directories are made. -/
  | unprepared {error later} (made : MakesSome files later) :
      Course unit root files (.error ⟨unit.targetDirectory root, error⟩, later)
  /-- The staging file is not made. -/
  | unstaged {error between}
      (made : files.makeDirectories (unit.targetDirectory root) = (.ok (), between)) :
      Course unit root files (.error ⟨unit.target root, error⟩, between)
  /-- The staging file is filled in part. -/
  | unfilled {error between stage part} (stages : unit.Stages root files between stage) :
      Course unit root files
        (.error ⟨unit.target root, error⟩, (between.put stage (.file part)).erase stage)
  /-- The staging file is filled but not moved. -/
  | unmoved {error between stage} (stages : unit.Stages root files between stage) :
      Course unit root files (.error ⟨unit.target root, error⟩,
        (between.put stage (.file (.text (clean unit.source)))).erase stage)
  | moved {between stage after} (stages : unit.Stages root files between stage)
      (renamed : (between.put stage (.file (.text (clean unit.source)))).rename stage
        (unit.target root) = .ok after) :
      Course unit root files (.ok (unit.target root), after)

/-- A unit was written to the entry at a location, which its path denotes, and all the rest is as it
was but for directories that were made. -/
structure Delivers (unit : SourceUnit) (root : Path) (files after : FileSystem)
    (front : List String) (location : Location) : Prop where
  denotes : (files.makeDirectories (unit.targetDirectory root)).2.Denotes (unit.target root) front
    location
  file : after.entryAt? location = some (.file (.text (clean unit.source)))
  noDirectory : files.entryAt? location ≠ some .directory
  workDir : after.workDir = files.workDir
  others : ∀ other, other ≠ location → Settled files after other
  /-- The path leads to the file, unless it runs through the link that the file has replaced. -/
  found : ¬ Follows (files.makeDirectories (unit.targetDirectory root)).2 location linkLimit front
      (origin (unit.target root) files.workDir) →
    after.find (unit.target root) = .ok (location, .file (.text (clean unit.source)))
  lost : Follows (files.makeDirectories (unit.targetDirectory root)).2 location linkLimit front
      (origin (unit.target root) files.workDir) →
    after.find (unit.target root) = .error .notDirectory

/-- A unit is written as a whole, or nothing but directories is added. -/
inductive AllOrNothing (unit : SourceUnit) (root : Path) (files : FileSystem) :
    Except WriteError Path × FileSystem → Prop where
  | all {after front location} (delivers : unit.Delivers root files after front location) :
      AllOrNothing unit root files (.ok (unit.target root), after)
  | nothing {error after} (extended : Extends files after) :
      AllOrNothing unit root files (.error error, after)

variable {unit : SourceUnit} {root : Path} {files between after : FileSystem} {stage : Location}

/-- A staging file is not the root. -/
theorem Stages.ne_nil (stages : unit.Stages root files between stage) : stage ≠ [] := by
  obtain ⟨directory, name, _, rfl⟩ := stages.beside
  simp

/-- Before a unit is staged, nothing but directories is added. -/
theorem Stages.extends (stages : unit.Stages root files between stage) : Extends files between := by
  have extended := FileSystem.extends_makeDirectories files (unit.targetDirectory root)
  rwa [stages.made] at extended

/-- What was put into a staging file goes with it. -/
theorem Stages.erase_put (stages : unit.Stages root files between stage) (entry : Entry) :
    (between.put stage entry).erase stage = between :=
  stages.fresh.erase_put stages.ne_nil

/-- A staging file that was moved is where it belongs. -/
theorem Stages.exists_delivers (stages : unit.Stages root files between stage)
    (renamed : (between.put stage (.file (.text (clean unit.source)))).rename stage
      (unit.target root) = .ok after) :
    ∃ front location, unit.Delivers root files after front location := by
  obtain ⟨front, location, denotes, noDirectory, rfl⟩ :=
    FileSystem.exists_denotes_of_rename stages.fresh stages.ne_nil renamed
  have proper := FileSystem.ne_nil_of_ne_directory noDirectory
  have prepared : (files.makeDirectories (unit.targetDirectory root)).2 = between := by
    rw [stages.made]
  refine ⟨front, location, ?_⟩
  constructor
  · rw [prepared]
    exact denotes
  · rw [FileSystem.entryAt?_put proper, if_pos rfl]
  · exact fun directory => noDirectory ((stages.extends.settled location).entryAt? directory)
  · exact stages.extends.workDir
  · intro other apart
    refine (stages.extends.settled other).trans (.inl ?_)
    rw [FileSystem.entryAt?_put proper, if_neg apart]
  · intro apart
    rw [prepared, ← stages.extends.workDir] at apart
    exact denotes.find_put noDirectory apart
  · intro follows
    rw [prepared, ← stages.extends.workDir] at follows
    exact denotes.find_put_of_follows noDirectory follows

/-- However the writing of a unit goes, it is written as a whole or not at all. -/
theorem Course.allOrNothing {result : Except WriteError Path × FileSystem}
    (course : unit.Course root files result) : unit.AllOrNothing root files result := by
  cases course with
  | unprepared made => exact .nothing made.extends
  | unstaged made =>
      have extended := FileSystem.extends_makeDirectories files (unit.targetDirectory root)
      rw [made] at extended
      exact .nothing extended
  | unfilled stages =>
      rw [stages.erase_put]
      exact .nothing stages.extends
  | unmoved stages =>
      rw [stages.erase_put]
      exact .nothing stages.extends
  | moved stages renamed =>
      obtain ⟨front, location, delivers⟩ := stages.exists_delivers renamed
      exact .all delivers

/-- A staging file can be made once the directories are there. -/
theorem exists_stages (unit : SourceUnit) (root : Path)
    (made : files.makeDirectories (unit.targetDirectory root) = (.ok (), between)) :
    ∃ stage, unit.Stages root files between stage := by
  obtain ⟨directory, there, _⟩ := FileSystem.exists_madeDirectory made
  obtain ⟨name, fresh⟩ := FileSystem.exists_isFree between directory
  exact ⟨directory ++ [name], made, ⟨directory, name, there, rfl⟩, fresh⟩

/-- Writing a unit goes one of the ways. -/
theorem course_write (unit : SourceUnit) (root : Path) (files : FileSystem) :
    unit.Course root files (unit.write root files) := by
  unfold SourceUnit.write
  split
  · next error later failed =>
      have made := FileSystem.makesSome_makeDirectories files (unit.targetDirectory root)
      rw [failed] at made
      exact .unprepared made
  · next between made =>
      obtain ⟨stage, stages⟩ := exists_stages unit root made
      split
      · next error refused =>
          have course : unit.Course root files (.error ⟨unit.target root, error⟩,
              (between.put stage (.file (.text (clean unit.source)))).erase stage) :=
            .unmoved stages
          rwa [stages.erase_put] at course
      · next after replaced =>
          obtain ⟨slot, fits, rfl⟩ := FileSystem.replace_eq_ok_iff.mp replaced
          refine .moved stages ((FileSystem.rename_put_eq_ok_iff stages.fresh stages.ne_nil).mpr
            ⟨slot, FileSystem.fileSlot_put stages.fresh stages.ne_nil fits, rfl⟩)

/-- Writing a unit goes one of the ways, and on each of them it is written as a whole or not at
all. -/
theorem write_all_or_nothing (unit : SourceUnit) (root : Path) (files : FileSystem) :
    unit.Course root files (unit.write root files) ∧
      ∀ result, unit.Course root files result → unit.AllOrNothing root files result :=
  ⟨course_write unit root files, fun _ course => course.allOrNothing⟩

/-- A class whose place is taken by a link. -/
def linkedFiles : FileSystem :=
  ⟨[(["kept.txt"], .file (.text "kept")), (["o"], .directory),
    (["o", "Item.java"], .link ⟨"../kept.txt"⟩)], []⟩

/-- The class of an item as it is emitted, with blanks that cleaning takes away. -/
def itemUnit : SourceUnit := ⟨"", "Item", "class Item \x7b  \n\x7d\n\n", ⟨"Item.java"⟩⟩

/-- The class is written in the place of the link, and what the link led to is left alone. -/
theorem link_written_over :
    ∃ after, itemUnit.write ⟨"o"⟩ linkedFiles = (.ok ⟨"o/Item.java"⟩, after) ∧
      itemUnit.AllOrNothing ⟨"o"⟩ linkedFiles (.ok ⟨"o/Item.java"⟩, after) ∧
      after.find ⟨"o/Item.java"⟩ =
        .ok (["o", "Item.java"], .file (.text "class Item \x7b\n\x7d\n")) ∧
      after.entryAt? ["kept.txt"] = some (.file (.text "kept")) := by
  obtain ⟨course, sound⟩ := write_all_or_nothing itemUnit ⟨"o"⟩ linkedFiles
  have ended : (itemUnit.write ⟨"o"⟩ linkedFiles).1 = .ok ⟨"o/Item.java"⟩ := by decide +kernel
  have written : itemUnit.write ⟨"o"⟩ linkedFiles =
      (.ok ⟨"o/Item.java"⟩, (itemUnit.write ⟨"o"⟩ linkedFiles).2) := Prod.ext ended rfl
  refine ⟨_, written, ?_, by decide +kernel, by decide +kernel⟩
  rw [← written]
  exact sound _ course

/-- A directory that holds a link to itself. -/
def loopedFiles : FileSystem := ⟨[(["o"], .directory), (["o", "x"], .link ⟨"."⟩)], []⟩

def levelUnit : SourceUnit := ⟨"", "x", "[logging]\nlevel = \"debug\"\n", ⟨"x"⟩⟩

/-- A path that runs through the link at its own entry leads nowhere once a file is there. -/
theorem not_always_found :
    ¬ ∀ (unit : SourceUnit) (root path : Path) (files after : FileSystem),
      unit.write root files = (.ok path, after) →
        ∃ location, after.find path = .ok (location, .file (.text (clean unit.source))) := by
  intro always
  have ended : (levelUnit.write ⟨"o/x"⟩ loopedFiles).1 = .ok ⟨"o/x/x"⟩ := by decide +kernel
  have lost : (levelUnit.write ⟨"o/x"⟩ loopedFiles).2.find ⟨"o/x/x"⟩ = .error .notDirectory := by
    decide +kernel
  obtain ⟨location, found⟩ := always levelUnit ⟨"o/x"⟩ ⟨"o/x/x"⟩ loopedFiles _ (Prod.ext ended rfl)
  rw [lost] at found
  cases found

end SourceUnit

end SchemaBeans
