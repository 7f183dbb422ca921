import SchemaBeans.Discovery.Step
import SchemaBeans.Total

/-!
# Walks come to an end

A step either enters a directory that was never entered, or goes on with less
below the entries that are left. The directories that links lead to are entered
once, so no arrangement of links makes a walk endless.
-/

namespace SchemaBeans.Discovery

/-- The directories that have not been entered yet. -/
def unvisited (files : FileSystem) (walk : Walk) : List Location :=
  ([] :: files.entries.map Prod.fst).filter fun location => !walk.visited.contains location

/-- The number of entries at a location and below it. -/
def size (files : FileSystem) (location : Location) : Nat :=
  files.entries.countP fun entry => location.isPrefixOf entry.1

/-- The number of entries at the entries that are left and below them. -/
def pendingSize (files : FileSystem) (visits : List Visit) : Nat :=
  total (fun visit => size files visit.location) visits

/-- More than what entering one directory can add to the entries that are left. -/
def enteringCost (files : FileSystem) : Nat :=
  (files.entries.length + 1) * files.entries.length + files.entries.length

/-- What gets smaller with every step. -/
def measure (files : FileSystem) (visits : List Visit) (walk : Walk) : Nat :=
  (unvisited files walk).length * enteringCost files +
    (files.entries.length + 1) * pendingSize files visits + visits.length

/-- In a list without repetitions at most one element satisfies a test that only one can. -/
theorem countP_le_one {names : List String} (distinct : names.Nodup) {test : String → Bool}
    (only : String) (unique : ∀ name, test name = true → name = only) :
    names.countP test ≤ 1 := by
  induction names with
  | nil => simp
  | cons first rest hypothesis =>
      obtain ⟨absent, distinct⟩ := List.nodup_cons.mp distinct
      cases holds : test first with
      | false => simpa [holds] using hypothesis distinct
      | true =>
          have none : rest.countP test = 0 := by
            refine List.countP_eq_zero.mpr fun name inside other => absent ?_
            rw [unique first holds, ← unique name other]
            exact inside
          simp [holds, none]

/-- The names in a directory are distinct. -/
theorem nodup_names (files : FileSystem) (location : Location) :
    (files.names location).Nodup := by
  refine (Sorted.pairwise_ofList Ord.compare _).imp ?_
  intro left right less same
  subst same
  simp [Std.ReflOrd.compare_self] at less

/-- Whether one location is below another. -/
def isBelow (directory location : Location) : Bool :=
  directory.isPrefixOf location && location != directory

/-- A location is below one name of a directory at most. -/
theorem countP_prefix_le (directory location : Location) {names : List String}
    (distinct : names.Nodup) :
    names.countP (fun name => (directory ++ [name]).isPrefixOf location) ≤
      if isBelow directory location then 1 else 0 := by
  by_cases some : ∃ name, (directory ++ [name]).isPrefixOf location = true
  · obtain ⟨only, inside⟩ := some
    obtain ⟨rest, shape⟩ := List.isPrefixOf_iff_prefix.mp inside
    have below : isBelow directory location = true := by
      subst shape
      simp [isBelow, List.isPrefixOf_iff_prefix, List.append_assoc]
    rw [below, if_pos rfl]
    refine countP_le_one distinct only fun name other => ?_
    obtain ⟨tail, again⟩ := List.isPrefixOf_iff_prefix.mp other
    have same : directory ++ (name :: tail) = directory ++ (only :: rest) := by
      simpa using again.trans shape.symm
    exact (List.cons.inj (List.append_cancel_left same)).1
  · have none : names.countP (fun name => (directory ++ [name]).isPrefixOf location) = 0 :=
      List.countP_eq_zero.mpr fun name _ holds => some ⟨name, holds⟩
    omega

/-- An entry is counted once for each name whose test it passes. -/
theorem total_countP_cons (test : String → Location × Entry → Bool) (entry : Location × Entry)
    (entries : List (Location × Entry)) (names : List String) :
    total (fun name => (entry :: entries).countP (test name)) names =
      total (fun name => entries.countP (test name)) names +
        names.countP fun name => test name entry := by
  induction names with
  | nil => rfl
  | cons name names hypothesis =>
      rw [total, hypothesis, total, List.countP_cons, List.countP_cons]
      omega

/-- What is below the names of a directory is below the directory. -/
theorem total_size_le (directory : Location) {names : List String} (distinct : names.Nodup)
    (entries : List (Location × Entry)) :
    total (fun name => entries.countP fun entry =>
        (directory ++ [name]).isPrefixOf entry.1) names ≤
      entries.countP fun entry => isBelow directory entry.1 := by
  induction entries with
  | nil =>
      have none (names : List String) : total (fun _ => 0) names = 0 := by
        induction names with
        | nil => rfl
        | cons name names hypothesis => simp only [total, hypothesis]
      simp [none]
  | cons entry entries hypothesis =>
      rw [total_countP_cons fun name entry => (directory ++ [name]).isPrefixOf entry.1]
      have one := countP_prefix_le directory entry.1 distinct
      simp only [List.countP_cons]
      omega

/-- A test that is stronger, and strictly so at one element, counts fewer elements. -/
theorem countP_lt {α : Type} {strong weak : α → Bool} {elements : List α} {element : α}
    (implies : ∀ other, strong other = true → weak other = true) (inside : element ∈ elements)
    (fails : strong element = false) (holds : weak element = true) :
    elements.countP strong < elements.countP weak := by
  obtain ⟨before, after, rfl⟩ := List.append_of_mem inside
  have first : before.countP strong ≤ before.countP weak :=
    List.countP_mono_left fun other _ => implies other
  have last : after.countP strong ≤ after.countP weak :=
    List.countP_mono_left fun other _ => implies other
  simp only [List.countP_append, List.countP_cons, fails, holds, if_true, Bool.false_eq_true,
    if_false]
  omega

/-- There is less below a directory than at it and below it. -/
theorem countP_below_lt {directory : Location} {entries : List (Location × Entry)}
    (inside : ∃ entry, (directory, entry) ∈ entries) :
    entries.countP (fun entry => isBelow directory entry.1) <
      entries.countP fun entry => directory.isPrefixOf entry.1 := by
  obtain ⟨entry, inside⟩ := inside
  refine countP_lt (fun other below => ?_) inside (by simp [isBelow])
    (List.isPrefixOf_iff_prefix.mpr (List.prefix_refl _))
  simp only [isBelow, Bool.and_eq_true] at below
  exact below.1

/-- What is below the entries of a directory is below the directory. -/
theorem pendingSize_children_le (files : FileSystem) (path : Path) (location : Location)
    (within : List Location) :
    pendingSize files (children files path location within) ≤
      files.entries.countP fun entry => isBelow location entry.1 := by
  simp only [pendingSize, children, total_map]
  exact total_size_le location (nodup_names files location) files.entries

/-- The entries of a directory have less below them than the directory itself. -/
theorem pendingSize_children_lt {files : FileSystem} {location : Location} (path : Path)
    (within : List Location) (inside : ∃ entry, (location, entry) ∈ files.entries) :
    pendingSize files (children files path location within) < size files location :=
  Nat.lt_of_le_of_lt (pendingSize_children_le files path location within)
    (countP_below_lt inside)

/-- A directory has no more entries than there are. -/
theorem length_children_le (files : FileSystem) (path : Path) (location : Location)
    (within : List Location) :
    (children files path location within).length ≤ files.entries.length := by
  simp only [children, List.length_map, FileSystem.names]
  exact Nat.le_trans (Sorted.length_ofList_le _ _) (List.length_filterMap_le _ _)

/-- Entering a directory leaves no more directories unvisited. -/
theorem unvisited_enter_le (files : FileSystem) (walk : Walk) (location : Location) :
    (unvisited files (walk.enter location)).length ≤ (unvisited files walk).length := by
  unfold Walk.enter
  split
  · exact Nat.le_refl _
  · simp only [unvisited, ← List.countP_eq_length_filter]
    refine List.countP_mono_left fun other _ kept => ?_
    simp only [List.contains_cons, Bool.not_or, Bool.and_eq_true] at kept
    exact kept.2

/-- Entering a directory that was not visited leaves fewer unvisited. -/
theorem unvisited_enter_lt {files : FileSystem} {walk : Walk} {location : Location} {entry : Entry}
    (found : files.entryAt? location = some entry) (new : walk.visited.contains location = false) :
    (unvisited files (walk.enter location)).length < (unvisited files walk).length := by
  have inside : location ∈ [] :: files.entries.map Prod.fst := by
    by_cases root : location = []
    · simp [root]
    · have inside := FileSystem.mem_entries_of_entryAt? found root
      exact List.mem_cons_of_mem _ (List.mem_map.mpr ⟨_, inside, rfl⟩)
  simp only [unvisited, Walk.enter, new, Bool.false_eq_true, if_false,
    ← List.countP_eq_length_filter]
  refine countP_lt (fun other kept => ?_) inside (by simp) (by rw [new]; rfl)
  simp only [List.contains_cons, Bool.not_or, Bool.and_eq_true] at kept
  exact kept.2

/-- Leaving an entry behind makes the measure smaller. -/
theorem measure_rest_lt (files : FileSystem) (visit : Visit) (rest : List Visit)
    {before after : Walk} (same : after.visited = before.visited) :
    measure files rest after < measure files (visit :: rest) before := by
  have equal : unvisited files after = unvisited files before := by simp [unvisited, same]
  have less : pendingSize files rest ≤ pendingSize files (visit :: rest) := by
    simp [pendingSize, total]
  have scaled := Nat.mul_le_mul_left (files.entries.length + 1) less
  unfold measure
  rw [equal, List.length_cons]
  omega

/-- Entering a directory by its own name makes the measure smaller. -/
theorem measure_children_lt {files : FileSystem} (visit : Visit) (rest : List Visit) (walk : Walk)
    {entry : Entry} (found : files.entryAt? visit.location = some entry) :
    measure files (children files visit.path visit.location visit.within ++ rest)
        (walk.enter visit.location) <
      measure files (visit :: rest) walk := by
  have proper : visit.location ≠ [] := by simp [Visit.location]
  have inside := FileSystem.mem_entries_of_entryAt? found proper
  have less := pendingSize_children_lt visit.path visit.within ⟨entry, inside⟩
  have scaled := Nat.mul_le_mul_left (files.entries.length + 1) (Nat.succ_le_of_lt less)
  have few := length_children_le files visit.path visit.location visit.within
  have fewer := Nat.mul_le_mul_right (enteringCost files)
    (unvisited_enter_le files walk visit.location)
  have sum : ∀ front : List Visit,
      pendingSize files (front ++ rest) = pendingSize files front + pendingSize files rest :=
    fun front => total_append _ _ _
  have whole : pendingSize files (visit :: rest) =
      size files visit.location + pendingSize files rest := rfl
  simp only [measure, sum, whole, List.length_append, List.length_cons, Nat.mul_add]
  rw [Nat.mul_succ] at scaled
  omega

/-- Entering a directory that was not visited makes the measure smaller, wherever it is. -/
theorem measure_enter_lt {files : FileSystem} (visit : Visit) (rest : List Visit) {walk : Walk}
    {location : Location} {entry : Entry} (found : files.entryAt? location = some entry)
    (new : walk.visited.contains location = false) :
    measure files (children files visit.path location visit.within ++ rest)
        (walk.enter location) <
      measure files (visit :: rest) walk := by
  have below := Nat.le_trans (pendingSize_children_le files visit.path location visit.within)
    (List.countP_le_length (l := files.entries))
  have scaled := Nat.mul_le_mul_left (files.entries.length + 1) below
  have few := length_children_le files visit.path location visit.within
  have fewer := Nat.mul_le_mul_right (enteringCost files)
    (Nat.succ_le_of_lt (unvisited_enter_lt found new))
  have sum : ∀ front : List Visit,
      pendingSize files (front ++ rest) = pendingSize files front + pendingSize files rest :=
    fun front => total_append _ _ _
  have more : pendingSize files rest ≤ pendingSize files (visit :: rest) := by
    simp [pendingSize, total]
  have moreScaled := Nat.mul_le_mul_left (files.entries.length + 1) more
  simp only [measure, sum, List.length_append, List.length_cons, Nat.mul_add]
  rw [Nat.succ_mul] at fewer
  have cost : enteringCost files =
      (files.entries.length + 1) * files.entries.length + files.entries.length := rfl
  omega

/-- Every step makes the measure smaller. -/
theorem measure_step_lt (files : FileSystem) (query : Query) (visit : Visit) (rest : List Visit)
    (walk : Walk) :
    measure files ((step files query visit walk).1 ++ rest) (step files query visit walk).2 <
      measure files (visit :: rest) walk := by
  have file := walk.visited_withFile query visit.path
  unfold step
  split
  · rename_i found
    split
    · exact measure_rest_lt files visit rest rfl
    · exact measure_children_lt visit rest walk found
  · exact measure_rest_lt files visit rest file
  · split
    · exact measure_rest_lt files visit rest rfl
    · rename_i location found
      have there := FileSystem.entryAt?_of_find found
      split
      · exact measure_rest_lt files visit rest rfl
      · split
        · exact measure_rest_lt files visit rest rfl
        · rename_i new
          exact measure_enter_lt visit rest there (by simpa using new)
    · exact measure_rest_lt files visit rest file
    · exact measure_rest_lt files visit rest rfl
  · exact measure_rest_lt files visit rest rfl

end SchemaBeans.Discovery
