import Mathlib.Data.List.Induction
import SchemaBeans.FileSystem.Change
import SchemaBeans.Proofs.Paths

/-!
# Where paths lead

`FileSystem.Leads` is the part of a walk that goes through directories and links:
what is left to walk after it does not change it. Where there are no links, names
lead straight down, so a path that is made of names below a directory leads to one
location and to no other.
-/

namespace SchemaBeans.FileSystem

/-- A piece of a path is the name of an entry: it makes no step of its own, and is not too long. -/
structure IsEntryName (piece : String) : Prop where
  ne_empty : piece ≠ ""
  ne_here : piece ≠ "."
  ne_up : piece ≠ ".."
  short : piece.utf8ByteSize ≤ nameLimit

/-- A piece that makes no step of its own and is not too long is the name of an entry. -/
theorem isEntryName_of_not {piece : String} (plain : ¬(piece = "" || piece = ".") = true)
    (notUp : ¬piece = "..") (short : ¬nameLimit < piece.utf8ByteSize) : IsEntryName piece := by
  obtain ⟨given, notHere⟩ : piece ≠ "" ∧ piece ≠ "." := by simpa using plain
  exact ⟨given, notHere, notUp, Nat.le_of_not_lt short⟩

/-- From one location, the pieces of a path lead to another through directories and links, with so
many links to be followed before and after. -/
inductive Leads (files : FileSystem) : Nat → List String → Location → Nat → Location → Prop where
  | done {links here} : Leads files links [] here links here
  | stay {links piece rest here left there} (step : piece = "" ∨ piece = ".")
      (later : Leads files links rest here left there) :
      Leads files links (piece :: rest) here left there
  | up {links rest here left there} (later : Leads files links rest here.dropLast left there) :
      Leads files links (".." :: rest) here left there
  | enter {links piece rest here left there} (named : IsEntryName piece)
      (found : files.entryAt? (here ++ [piece]) = some .directory)
      (later : Leads files links rest (here ++ [piece]) left there) :
      Leads files links (piece :: rest) here left there
  | follow {links piece rest here left there target} (named : IsEntryName piece)
      (found : files.entryAt? (here ++ [piece]) = some (.link target)) (given : target.text ≠ "")
      (later : Leads files links (pieces target ++ rest) (origin target here) left there) :
      Leads files (links + 1) (piece :: rest) here left there

variable {files before after : FileSystem} {links left last : Nat} {front rest names : List String}
  {piece : String} {here there location : Location} {path : Path} {entry : Entry} {place : Place}

/-- A walk at a name goes by what is there. -/
theorem walk_cons (named : IsEntryName piece) :
    files.walk false links (piece :: rest) here =
      match files.entryAt? (here ++ [piece]) with
      | some .directory => files.walk false links rest (here ++ [piece])
      | some (.file content) =>
          if rest.isEmpty then .ok (.found (here ++ [piece]) (.file content))
          else .error .notDirectory
      | some (.link target) =>
          match links with
          | 0 => .error .linkLoop
          | links + 1 =>
              if target.text.isEmpty then .error .missing
              else files.walk false links (pieces target ++ rest) (origin target here)
      | none => if rest.all String.isEmpty then .ok (.vacant here piece) else .error .missing := by
  rw [FileSystem.walk, if_neg (by simp [named.ne_empty, named.ne_here]), if_neg named.ne_up,
    if_neg (by simp), if_neg (Nat.not_lt.mpr named.short)]
  cases files.entryAt? (here ++ [piece]) with
  | none => rfl
  | some entry =>
      cases entry with
      | link target => cases links <;> rfl
      | _ => rfl

/-- An empty piece and a dot lead nowhere else. -/
theorem walk_stay (step : piece = "" ∨ piece = ".") :
    files.walk false links (piece :: rest) here = files.walk false links rest here := by
  rw [FileSystem.walk, if_pos (by simpa using step)]

/-- Two dots lead to the directory above. -/
theorem walk_up :
    files.walk false links (".." :: rest) here = files.walk false links rest here.dropLast := by
  rw [FileSystem.walk, if_neg (by simp), if_pos rfl]

/-- A walk goes on from where its first pieces lead. -/
theorem walk_of_leads (leads : Leads files links front here left there) :
    files.walk false links (front ++ rest) here = files.walk false left rest there := by
  induction leads with
  | done => rfl
  | stay step _ hypothesis => rw [List.cons_append, walk_stay step, hypothesis]
  | up _ hypothesis => rw [List.cons_append, walk_up, hypothesis]
  | enter named found _ hypothesis => rw [List.cons_append, walk_cons named, found, hypothesis]
  | follow named found given _ hypothesis =>
      rw [List.cons_append, walk_cons named, found, ← hypothesis, List.append_assoc]
      simp [given]

/-- A walk that finds a directory, or anything behind a separator, was led there. -/
theorem exists_leads_of_walk {trail : List String}
    (found : files.walk false links trail here = .ok (.found location entry))
    (ends : entry = .directory ∨ trail.getLast? = some "") :
    ∃ left, Leads files links trail here left location := by
  have later : ∀ {piece : String} {rest : List String}, piece ≠ "" →
      entry = .directory ∨ (piece :: rest).getLast? = some "" →
      entry = .directory ∨ rest.getLast? = some "" := by
    intro piece rest given ends
    refine ends.imp_right fun closed => ?_
    cases rest with
    | nil => exact absurd (Option.some.inj closed) given
    | cons next rest => exact closed
  fun_induction FileSystem.walk files false links trail here with
  | case1 links here =>
      cases found
      exact ⟨links, .done⟩
  | case3 links piece rest here step hypothesis =>
      have step : piece = "" ∨ piece = "." := by simpa using step
      by_cases alone : rest = []
      · subst alone
        unfold FileSystem.walk at found
        split at found <;> cases found
        exact ⟨links, .stay step .done⟩
      · obtain ⟨next, rest, rfl⟩ := List.exists_cons_of_ne_nil alone
        obtain ⟨left, leads⟩ := hypothesis found ends
        exact ⟨left, .stay step leads⟩
  | case4 links rest here _ hypothesis =>
      obtain ⟨left, leads⟩ := hypothesis found (later (by decide) ends)
      exact ⟨left, .up leads⟩
  | case7 links piece rest here plain notUp _ short directory hypothesis =>
      have named := isEntryName_of_not plain notUp short
      obtain ⟨left, leads⟩ := hypothesis found (later named.ne_empty ends)
      exact ⟨left, .enter named directory leads⟩
  | case8 links piece rest here plain _ _ _ content _ final =>
      -- A file stands at the end of a path only, and no separator is behind it.
      cases found
      simp_all
  | case12 piece rest here plain notUp _ short target link links given hypothesis =>
      have named := isEntryName_of_not plain notUp short
      have behind : entry = .directory ∨ (pieces target ++ rest).getLast? = some "" := by
        refine (later named.ne_empty ends).imp_right fun closed => ?_
        rw [List.getLast?_append, closed]
        rfl
      obtain ⟨left, leads⟩ := hypothesis found behind
      exact ⟨left, .follow named link (by simpa using given) leads⟩
  | case2 | case5 | case6 | case9 | case10 | case11 | case13 | case14 => cases found

/-- Where pieces lead and where more pieces lead that start with them: the others lead from one to
the other. -/
theorem Leads.of_append (leads : Leads files links front here left there)
    (whole : Leads files links (front ++ rest) here last location) :
    Leads files left rest there last location := by
  induction leads with
  | done => exact whole
  | stay step _ hypothesis =>
      cases whole with
      | stay _ later => exact hypothesis later
      | up => simp at step
      | enter named => exact absurd step (by simp [named.ne_empty, named.ne_here])
      | follow named => exact absurd step (by simp [named.ne_empty, named.ne_here])
  | up _ hypothesis =>
      cases whole with
      | stay step => simp at step
      | up later => exact hypothesis later
      | enter named => exact absurd rfl named.ne_up
      | follow named => exact absurd rfl named.ne_up
  | enter named found _ hypothesis =>
      cases whole with
      | stay step => exact absurd step (by simp [named.ne_empty, named.ne_here])
      | up => exact absurd rfl named.ne_up
      | enter _ _ later => exact hypothesis later
      | follow _ linked =>
          rw [found] at linked
          cases linked
  | follow named found _ _ hypothesis =>
      cases whole with
      | stay step => exact absurd step (by simp [named.ne_empty, named.ne_here])
      | up => exact absurd rfl named.ne_up
      | enter _ directory =>
          rw [found] at directory
          cases directory
      | follow _ linked _ later =>
          rw [found] at linked
          cases linked
          exact hypothesis (by rwa [List.append_assoc])

/-- Pieces lead to one location only. -/
theorem Leads.unique (leads : Leads files links front here left there)
    (other : Leads files links front here last location) : there = location := by
  have whole : Leads files links (front ++ []) here last location := by
    rwa [List.append_nil]
  cases leads.of_append whole
  rfl

/-- Pieces lead on by a name only if something is there. -/
theorem Leads.ne_none (leads : Leads files links (piece :: rest) here left there)
    (named : IsEntryName piece) : files.entryAt? (here ++ [piece]) ≠ none := by
  cases leads with
  | stay step => exact absurd step (by simp [named.ne_empty, named.ne_here])
  | up => exact absurd rfl named.ne_up
  | enter _ found => simp [found]
  | follow _ found => simp [found]

/-- Directories and links stay what they are. -/
structure Keeps (before after : FileSystem) : Prop where
  workDir : after.workDir = before.workDir
  directory : ∀ location, before.entryAt? location = some .directory →
    after.entryAt? location = some .directory
  link : ∀ location target, before.entryAt? location = some (.link target) →
    after.entryAt? location = some (.link target)

/-- Where directories and links stay, pieces lead where they led. -/
theorem Leads.of_keeps (keeps : Keeps before after)
    (leads : Leads before links front here left there) :
    Leads after links front here left there := by
  induction leads with
  | done => exact .done
  | stay step _ hypothesis => exact .stay step hypothesis
  | up _ hypothesis => exact .up hypothesis
  | enter named found _ hypothesis => exact .enter named (keeps.directory _ found) hypothesis
  | follow named found given _ hypothesis =>
      exact .follow named (keeps.link _ _ found) given hypothesis

/-- No link is at a location or below it. -/
def Unlinked (files : FileSystem) (location : Location) : Prop :=
  ∀ below, location <+: below → ∀ target, files.entryAt? below ≠ some (.link target)

/-- Where no entry is a link, none is anywhere. -/
theorem unlinked_of_entries
    (noLink : ∀ listed ∈ files.entries, ∀ target, listed.2 ≠ .link target) :
    files.Unlinked location := by
  intro below _ target linked
  by_cases top : below = []
  · rw [top] at linked
    cases linked
  · exact noLink _ (mem_entries_of_entryAt? linked top) target rfl

/-- Where there are no links, names lead straight down through directories. -/
theorem Leads.straight (unlinked : files.Unlinked location) (inside : location <+: here)
    (proper : ∀ name ∈ names, Path.IsName name) (leads : Leads files links names here left there) :
    there = here ++ names ∧ (∀ name ∈ names, IsEntryName name) ∧
      ∀ front, front ≠ [] → front <+: names → files.entryAt? (here ++ front) = some .directory := by
  induction names generalizing here with
  | nil =>
      cases leads
      refine ⟨(List.append_nil _).symm, by simp, ?_⟩
      intro front given within
      exact absurd (List.prefix_nil.mp within) given
  | cons name names hypothesis =>
      obtain ⟨first, proper⟩ := List.forall_mem_cons.mp proper
      have below : location <+: here ++ [name] := inside.trans (List.prefix_append _ _)
      cases leads with
      | stay step => exact absurd step (by simp [first.ne_empty, first.ne_here])
      | up => exact absurd rfl first.ne_up
      | follow _ linked => exact absurd linked (unlinked _ below _)
      | enter named found later =>
          obtain ⟨same, others, within⟩ := hypothesis below proper later
          refine ⟨by simp [same], List.forall_mem_cons.mpr ⟨named, others⟩, ?_⟩
          intro front given above
          obtain ⟨other, rest, rfl⟩ := List.exists_cons_of_ne_nil given
          obtain ⟨rfl, prefixed⟩ := List.cons_prefix_cons.mp above
          by_cases alone : rest = []
          · rw [alone]
            exact found
          · rw [List.append_cons]
            exact within rest alone prefixed

/-- Names lead down through the directories that are there. -/
theorem leads_straight {here : Location} (named : ∀ name ∈ names, IsEntryName name)
    (directories : ∀ front, front ≠ [] → front <+: names →
      files.entryAt? (here ++ front) = some .directory) :
    Leads files links names here links (here ++ names) := by
  induction names generalizing here with
  | nil =>
      rw [List.append_nil]
      exact .done
  | cons name names hypothesis =>
      obtain ⟨first, named⟩ := List.forall_mem_cons.mp named
      have found := directories [name] (by simp) (by simp)
      have further : Leads files links names (here ++ [name]) links (here ++ [name] ++ names) := by
        refine hypothesis named ?_
        intro front given above
        have longer := directories (name :: front) (by simp)
          (List.cons_prefix_cons.mpr ⟨rfl, above⟩)
        rwa [List.append_cons] at longer
      rw [List.append_cons]
      exact .enter first found further

/-- The first pieces of a path that leads somewhere lead somewhere. -/
theorem Leads.exists_front (leads : Leads files links (front ++ rest) here left there) :
    ∃ left there, Leads files links front here left there := by
  generalize whole : front ++ rest = trail at leads
  induction leads generalizing front with
  | done =>
      obtain ⟨rfl, _⟩ := List.append_eq_nil_iff.mp whole
      exact ⟨_, _, .done⟩
  | stay step _ hypothesis =>
      cases front with
      | nil => exact ⟨_, _, .done⟩
      | cons first front =>
          obtain ⟨rfl, later⟩ := List.cons.inj whole
          obtain ⟨left, there, leads⟩ := hypothesis later
          exact ⟨left, there, .stay step leads⟩
  | up _ hypothesis =>
      cases front with
      | nil => exact ⟨_, _, .done⟩
      | cons first front =>
          obtain ⟨rfl, later⟩ := List.cons.inj whole
          obtain ⟨left, there, leads⟩ := hypothesis later
          exact ⟨left, there, .up leads⟩
  | enter named found _ hypothesis =>
      cases front with
      | nil => exact ⟨_, _, .done⟩
      | cons first front =>
          obtain ⟨rfl, later⟩ := List.cons.inj whole
          obtain ⟨left, there, leads⟩ := hypothesis later
          exact ⟨left, there, .enter named found leads⟩
  | @follow links piece later here left there target named found given _ hypothesis =>
      cases front with
      | nil => exact ⟨_, _, .done⟩
      | cons first front =>
          obtain ⟨rfl, further⟩ := List.cons.inj whole
          have behind : (pieces target ++ front) ++ rest = pieces target ++ later :=
            (List.append_assoc _ _ _).trans (congrArg (pieces target ++ ·) further)
          obtain ⟨left, there, leads⟩ := hypothesis behind
          exact ⟨left, there, .follow named found given leads⟩

/-- Pieces without a component lead nowhere else. -/
theorem leads_steps {steps : List String} (blank : ∀ piece ∈ steps, piece = "" ∨ piece = ".") :
    Leads files links steps here links here := by
  induction steps with
  | nil => exact .done
  | cons piece steps hypothesis =>
      obtain ⟨first, blank⟩ := List.forall_mem_cons.mp blank
      exact .stay first (hypothesis blank)

/-- An empty piece leads nowhere else. -/
theorem Leads.blank (leads : Leads files links [""] here left there) : there = here :=
  leads.unique (leads_steps (by simp))

/-- A path leads to a location through directories and links. -/
def Reaches (files : FileSystem) (path : Path) (location : Location) : Prop :=
  ∃ left, Leads files linkLimit (pieces path) (origin path files.workDir) left location

/-- The empty path leads to the working directory. -/
theorem reaches_empty : files.Reaches ⟨""⟩ files.workDir :=
  ⟨linkLimit, .stay (.inl rfl) .done⟩

/-- A path reaches the same directory as long as directories and links are kept. -/
theorem Reaches.of_keeps (keeps : Keeps before after) (reaches : before.Reaches path location) :
    after.Reaches path location := by
  obtain ⟨left, leads⟩ := reaches
  refine ⟨left, ?_⟩
  rw [keeps.workDir]
  exact leads.of_keeps keeps

/-- A path that leads to a directory is found to do so. -/
theorem reaches_of_find (found : files.find path = .ok (location, .directory)) :
    files.Reaches path location := by
  unfold FileSystem.find FileSystem.place at found
  cases refused : refusal? path with
  | some error =>
      rw [refused] at found
      cases found
  | none =>
      rw [refused] at found
      cases walked : files.walk false linkLimit (pieces path) (origin path files.workDir) with
      | error error => simp [walked] at found
      | ok place =>
          cases place with
          | vacant directory name => simp [walked] at found
          | found place entry =>
              simp only [walked, Except.ok.injEq, Prod.mk.injEq] at found
              obtain ⟨rfl, rfl⟩ := found
              exact exists_leads_of_walk walked (.inl rfl)

/-- A path finds what is where its pieces lead. -/
theorem find_of_leads (allowed : refusal? path = none)
    (leads : Leads files links front (origin path files.workDir) left there)
    (start : links = linkLimit) (whole : pieces path = front ++ rest)
    (found : files.walk false left rest there = .ok (.found location entry)) :
    files.find path = .ok (location, entry) := by
  subst start
  have walked := (walk_of_leads leads).trans found
  simp [FileSystem.find, FileSystem.place, allowed, whole, walked]

/-- The pieces of a path that is appended come behind those of the other path, save for an empty
piece at the end of that. -/
theorem exists_pieces_join (base : Path) {tail : Path} (relative : tail.isAbsolute = false) :
    ∃ front, pieces (base.join tail) = front ++ pieces tail ∧
      (pieces base = front ++ [""] ∨ pieces base = front ∧ front ≠ [""]) := by
  obtain ⟨front, joined, whole⟩ := Path.exists_split_join base relative
  refine ⟨front.map String.ofList, by simp [pieces, Text.splitString, joined], ?_⟩
  rcases whole with closed | ⟨same, given⟩
  · exact .inl (by simp [pieces, Text.splitString, closed])
  · refine .inr ⟨by simp [pieces, Text.splitString, same], ?_⟩
    intro single
    obtain ⟨piece, rfl, empty⟩ := List.map_eq_singleton_iff.mp single
    have none : piece = [] := String.ofList_eq_empty_iff.mp empty
    exact given (by rw [none])

/-- A name is the only piece of its path. -/
theorem pieces_of_isName {name : String} (proper : Path.IsName name) : pieces ⟨name⟩ = [name] := by
  simp [pieces, Text.splitString, proper.split_eq]

/-- The pieces of a path that is made of names are the names. -/
theorem pieces_descend (proper : ∀ name ∈ names, Path.IsName name) (given : names ≠ []) :
    pieces (Path.descend ⟨""⟩ names) = names := by
  induction names using List.reverseRecOn with
  | nil => exact absurd rfl given
  | append_singleton names name hypothesis =>
      obtain ⟨proper, own⟩ := List.forall_mem_append.mp proper
      have last := own name (List.mem_singleton_self name)
      obtain ⟨front, joined, whole⟩ :=
        exists_pieces_join (Path.descend ⟨""⟩ names) last.not_isAbsolute
      rw [Path.descend_concat, joined, pieces_of_isName last]
      by_cases empty : names = []
      · subst empty
        have start : pieces (Path.descend ⟨""⟩ []) = [""] := rfl
        rw [start] at whole
        rcases whole with closed | ⟨same, other⟩
        · simpa using closed.symm
        · exact absurd same.symm other
      · rw [hypothesis proper empty] at whole
        rcases whole with closed | ⟨same, _⟩
        · have blank := proper "" (closed ▸ List.mem_append_right front (by simp))
          exact absurd rfl blank.ne_empty
        · rw [same]

/-- Where a path leads, others go on from that are appended to it. -/
theorem Reaches.exists_front {base tail : Path} (reaches : files.Reaches base location)
    (relative : tail.isAbsolute = false) :
    ∃ front left, pieces (base.join tail) = front ++ pieces tail ∧
      Leads files linkLimit front (origin (base.join tail) files.workDir) left location := by
  obtain ⟨front, joined, whole⟩ := exists_pieces_join base relative
  obtain ⟨left, leads⟩ := reaches
  have start : origin (base.join tail) files.workDir = origin base files.workDir := by
    rw [origin, origin, Path.isAbsolute_join relative]
  rw [start]
  rcases whole with closed | ⟨same, _⟩
  · rw [closed] at leads
    obtain ⟨between, there, first⟩ := leads.exists_front
    have same := (first.of_append leads).blank
    exact ⟨front, between, joined, same ▸ first⟩
  · rw [same] at leads
    exact ⟨front, left, joined, leads⟩

/-- A slot is the last piece that is not empty, in the directory that the pieces before it lead
to. -/
theorem exists_walk_of_slot {slot : Slot} (found : files.slot path = .ok slot)
    (given : slot.name ≠ "") :
    refusal? path = none ∧ ∃ front closing entry, pieces path = front ++ slot.name :: closing ∧
      (∀ piece ∈ closing, piece = "") ∧
      files.walk false linkLimit (front ++ [""]) (origin path files.workDir) =
        .ok (.found slot.directory entry) := by
  unfold FileSystem.slot at found
  cases refused : refusal? path with
  | some error =>
      rw [refused] at found
      cases found
  | none =>
      refine ⟨rfl, ?_⟩
      have parts := @List.takeWhile_append_dropWhile _ String.isEmpty (pieces path).reverse
      have blank : ∀ piece ∈ (pieces path).reverse.takeWhile String.isEmpty, piece = "" := by
        intro piece inside
        exact String.isEmpty_iff.mp (List.all_eq_true.mp List.all_takeWhile piece inside)
      simp only [refused] at found
      generalize (pieces path).reverse.takeWhile String.isEmpty = closing at parts blank
      generalize (pieces path).reverse.dropWhile String.isEmpty = reversed at parts found
      split at found
      · next walked =>
          cases found
          cases reversed with
          | nil => exact absurd rfl given
          | cons name before =>
              refine ⟨before.reverse, closing.reverse, _, ?_, ?_, walked⟩
              · rw [← List.reverse_reverse (pieces path), ← parts]
                simp
              · intro piece inside
                exact blank piece (List.mem_reverse.mp inside)
      · cases found
      · cases found

/-- The pieces before the name of a slot lead to its directory. -/
theorem exists_leads_of_slot {slot : Slot} (found : files.slot path = .ok slot)
    (given : slot.name ≠ "") :
    refusal? path = none ∧ ∃ front closing left entry, pieces path = front ++ slot.name :: closing ∧
      (∀ piece ∈ closing, piece = "") ∧
      Leads files linkLimit front (origin path files.workDir) left slot.directory ∧
      files.entryAt? slot.directory = some entry := by
  obtain ⟨allowed, front, closing, entry, whole, blank, walked⟩ := exists_walk_of_slot found given
  obtain ⟨last, leads⟩ := exists_leads_of_walk walked (.inr (by simp))
  obtain ⟨left, there, first⟩ := leads.exists_front
  have same := (first.of_append leads).blank
  exact ⟨allowed, front, closing, left, entry, whole, blank, same ▸ first, entryAt?_of_walk walked⟩

end SchemaBeans.FileSystem
