import SchemaBeans.Proofs.Chains
import SchemaBeans.Proofs.Trees

/-!
# Where paths come to

A path comes to one place: where it leads to, or the first place on its way where
neither a directory nor a link is. As long as directories and links stay, only what
is at that place decides what the path is found to lead to.
-/

namespace SchemaBeans.FileSystem

/-- From one location, the pieces of a path come to a place: the end of their way, or the first place
on it where no directory and no link is. -/
inductive Comes (files : FileSystem) : Nat → List String → Location → Location → Prop where
  | done {links here} : Comes files links [] here here
  | halt {links piece rest here} (named : IsEntryName piece)
      (other : files.entryAt? (here ++ [piece]) = none ∨
        ∃ content, files.entryAt? (here ++ [piece]) = some (.file content)) :
      Comes files links (piece :: rest) here (here ++ [piece])
  | stay {links piece rest here place} (step : piece = "" ∨ piece = ".")
      (later : Comes files links rest here place) : Comes files links (piece :: rest) here place
  | up {links rest here place} (later : Comes files links rest here.dropLast place) :
      Comes files links (".." :: rest) here place
  | enter {links piece rest here place} (named : IsEntryName piece)
      (found : files.entryAt? (here ++ [piece]) = some .directory)
      (later : Comes files links rest (here ++ [piece]) place) :
      Comes files links (piece :: rest) here place
  | follow {links piece rest here place target} (named : IsEntryName piece)
      (found : files.entryAt? (here ++ [piece]) = some (.link target)) (given : target.text ≠ "")
      (later : Comes files links (pieces target ++ rest) (origin target here) place) :
      Comes files (links + 1) (piece :: rest) here place

/-- The place that a path comes to, unless it is refused. -/
def ComesTo (files : FileSystem) (path : Path) (place : Location) : Prop :=
  refusal? path = none ∧ Comes files linkLimit (pieces path) (origin path files.workDir) place

variable {files before after : FileSystem} {links : Nat} {trail : List String} {name : String}
  {here place location : Location} {path base : Path} {entry : Entry} {content : Content}

/-- Pieces come to what a walk along them finds. -/
theorem Comes.eq_of_walk (comes : Comes files links trail here place)
    (found : files.walk false links trail here = .ok (.found location entry)) :
    place = location := by
  induction comes with
  | done =>
      rw [FileSystem.walk] at found
      split at found <;> cases found
      rfl
  | halt named other =>
      rw [walk_cons named] at found
      rcases other with vacant | ⟨content, held⟩
      · rw [vacant] at found
        simp only at found
        split at found <;> cases found
      · rw [held] at found
        simp only at found
        split at found <;> cases found
        rfl
  | stay step _ hypothesis => exact hypothesis ((walk_stay step).symm.trans found)
  | up _ hypothesis => exact hypothesis (walk_up.symm.trans found)
  | enter named held _ hypothesis =>
      rw [walk_cons named, held] at found
      exact hypothesis found
  | follow named held given _ hypothesis =>
      rw [walk_cons named, held] at found
      exact hypothesis (by simpa [given] using found)

/-- A path comes to what it is found to lead to. -/
theorem ComesTo.eq_of_find (comes : files.ComesTo path place)
    (found : files.find path = .ok (location, entry)) : place = location := by
  obtain ⟨allowed, comes⟩ := comes
  unfold FileSystem.find FileSystem.place at found
  simp only [allowed] at found
  split at found
  · next walked =>
      cases found
      exact comes.eq_of_walk walked
  · cases found
  · cases found

/-- A walk goes as before while directories and links stay, and the place that it comes to. -/
theorem walk_eq_of_comes (keeps : Keeps before after)
    (same : ∀ place, Comes before links trail here place →
      after.entryAt? place = before.entryAt? place) :
    after.walk false links trail here = before.walk false links trail here := by
  fun_induction FileSystem.walk before false links trail here with
  | case1 links here entry found => rw [FileSystem.walk, same _ .done, found]
  | case2 links here found => rw [FileSystem.walk, same _ .done, found]
  | case3 links piece rest here step hypothesis =>
      have step : piece = "" ∨ piece = "." := by simpa using step
      rw [walk_stay step]
      exact hypothesis fun place comes => same place (.stay step comes)
  | case4 links rest here _ hypothesis =>
      rw [walk_up]
      exact hypothesis fun place comes => same place (.up comes)
  | case5 links piece rest here _ _ making => simp at making
  | case6 links piece rest here plain notUp _ long =>
      rw [FileSystem.walk, if_neg plain, if_neg notUp, if_neg (by simp), if_pos long]
  | case7 links piece rest here plain notUp _ short found hypothesis =>
      have named := isEntryName_of_not plain notUp short
      rw [walk_cons named, keeps.directory _ found]
      exact hypothesis fun place comes => same place (.enter named found comes)
  | case8 links piece rest here plain notUp _ short content found final =>
      have named := isEntryName_of_not plain notUp short
      rw [walk_cons named, same _ (.halt named (.inr ⟨content, found⟩)), found]
      simp [final]
  | case9 links piece rest here plain notUp _ short content found further =>
      have named := isEntryName_of_not plain notUp short
      rw [walk_cons named, same _ (.halt named (.inr ⟨content, found⟩)), found]
      simp [further]
  | case10 piece rest here plain notUp _ short target found =>
      rw [walk_cons (isEntryName_of_not plain notUp short), keeps.link _ _ found]
  | case11 piece rest here plain notUp _ short target found links empty =>
      rw [walk_cons (isEntryName_of_not plain notUp short), keeps.link _ _ found]
      simp [empty]
  | case12 piece rest here plain notUp _ short target found links given hypothesis =>
      have named := isEntryName_of_not plain notUp short
      have filled : target.text ≠ "" := by simpa using given
      rw [walk_cons named, keeps.link _ _ found]
      simp only [given]
      exact hypothesis fun place comes => same place (.follow named found filled comes)
  | case13 links piece rest here plain notUp _ short found final =>
      have named := isEntryName_of_not plain notUp short
      rw [walk_cons named, same _ (.halt named (.inl found)), found]
      simp only [final, if_true]
  | case14 links piece rest here plain notUp _ short found further =>
      have named := isEntryName_of_not plain notUp short
      rw [walk_cons named, same _ (.halt named (.inl found)), found]
      simp only [further]
      rfl

/-- A path is found to lead to the same while directories and links stay, and the place that it comes
to. -/
theorem find_eq_of_comesTo (keeps : Keeps before after)
    (same : ∀ place, before.ComesTo path place → after.entryAt? place = before.entryAt? place) :
    after.find path = before.find path := by
  unfold FileSystem.find FileSystem.place
  cases refused : refusal? path with
  | some error => rfl
  | none =>
      have walked : after.walk false linkLimit (pieces path) (origin path before.workDir) =
          before.walk false linkLimit (pieces path) (origin path before.workDir) :=
        walk_eq_of_comes keeps fun place comes => same place ⟨refused, comes⟩
      simp only [keeps.workDir, walked]

/-- A path leads to a directory as long as directories and links stay. -/
theorem find_of_keeps (keeps : Keeps before after)
    (found : before.find path = .ok (location, .directory)) :
    after.find path = .ok (location, .directory) := by
  rw [find_eq_of_comesTo keeps, found]
  intro place comes
  obtain rfl := comes.eq_of_find found
  have there := entryAt?_of_find found
  rw [there, keeps.directory _ there]

/-- A path that leads to a directory leads on to a file that is in it. -/
theorem find_join_file (proper : Path.IsName name) (named : IsEntryName name)
    (found : files.find base = .ok (location, .directory))
    (allowed : refusal? (base.join ⟨name⟩) = none)
    (there : files.entryAt? (location ++ [name]) = some (.file content)) :
    files.find (base.join ⟨name⟩) = .ok (location ++ [name], .file content) := by
  obtain ⟨front, left, whole, leads⟩ := (reaches_of_find found).exists_front proper.not_isAbsolute
  refine find_of_leads allowed leads rfl whole ?_
  rw [pieces_of_isName proper, walk_cons named, there]
  rfl

end SchemaBeans.FileSystem
