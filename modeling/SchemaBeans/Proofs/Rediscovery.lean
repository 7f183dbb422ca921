import SchemaBeans.Loading
import SchemaBeans.Proofs.Located
import SchemaBeans.Proofs.Ways
import SchemaBeans.Proofs.Writing

/-!
# Looking for documents once more

Directories that were made and files that are no documents do not change what a
discovery finds: its walk makes further steps at what is new, which find nothing, and
between them the steps that it made before.
-/

namespace SchemaBeans

namespace FileSystem

variable {files before after : FileSystem} {location : Location} {name : String}

/-- A directory holds the names under which something is in it. -/
theorem mem_names_iff : name ∈ files.names location ↔ files.entryAt? (location ++ [name]) ≠ none := by
  refine ⟨fun inside => ?_, fun there => ?_⟩
  · obtain ⟨entry, listed⟩ := mem_names.mp inside
    rw [FileSystem.entryAt?, if_neg (by simp), Ne, List.lookup_eq_none_iff]
    exact fun absent => by simpa using absent _ listed
  · obtain ⟨entry, found⟩ := Option.ne_none_iff_exists'.mp there
    exact mem_names_of_entryAt? found

/-- Where nothing is removed, the names of what was there are the ones that a directory had. -/
theorem filter_names_eq (stays : ∀ place, before.entryAt? place ≠ none → after.entryAt? place ≠ none)
    (location : Location) :
    (after.names location).filter
        (fun name => (before.entryAt? (location ++ [name])).isSome) = before.names location := by
  have ordered (files : FileSystem) : (files.names location).Pairwise
      fun left right => Ord.compare left right = .lt := Sorted.pairwise_ofList Ord.compare _
  have same : ((after.names location).filter
      fun name => (before.entryAt? (location ++ [name])).isSome).Perm (before.names location) := by
    refine (List.perm_ext_iff_of_nodup ((Discovery.nodup_names after location).filter _)
      (Discovery.nodup_names before location)).mpr fun name => ?_
    rw [List.mem_filter, mem_names_iff, mem_names_iff, Option.isSome_iff_ne_none]
    exact ⟨And.right, fun there => ⟨stays _ there, there⟩⟩
  refine same.eq_of_pairwise ?_ ((ordered after).filter _) (ordered before)
  intro left right _ _ less greater
  rw [Std.OrientedCmp.gt_iff_lt.mpr less] at greater
  cases greater

/-- The entries of a tree are what is found in it. -/
theorem IsTree.mem_entries_iff {entry : Entry} (tree : files.IsTree) (proper : location ≠ []) :
    (location, entry) ∈ files.entries ↔ files.entryAt? location = some entry :=
  ⟨fun listed => tree.entryAt?_of_mem listed proper, fun found => mem_entries_of_entryAt? found proper⟩

end FileSystem

namespace Discovery

open FileSystem (Keeps Settled)

/-- What changed goes unnoticed by a discovery: directories were made, under paths that are not too
long, and files that have no extension that is looked for; the root and the links that the walk comes
to lead where they led. -/
structure Unnoticed (query : Query) (before after : FileSystem) : Prop where
  keeps : Keeps before after
  changes : ∀ location, Settled before after location ∨
    ∃ directory name content, location = directory ++ [name] ∧ Path.IsName name ∧
      ¬ NameHasExtension name query.extensions ∧
      after.entryAt? location = some (.file content)
  root : after.find query.root = before.find query.root
  links : ∀ stop ∈ stops before query, ∀ leg ∈ stop.legs before, ∀ target,
    before.entryAt? leg.visit.location = some (.link target) →
      after.find leg.visit.path = before.find leg.visit.path
  short : ∀ stop ∈ stops after query, ∀ leg ∈ stop.legs after,
    before.entryAt? leg.visit.location = none →
      after.entryAt? leg.visit.location = some .directory →
        FileSystem.refusal? leg.visit.path = none

/-- Two walks that have found the same, and have visited the same of what was there before. -/
structure Alike (before : FileSystem) (walk other : Walk) : Prop where
  visited : ∀ place, before.entryAt? place ≠ none →
    (place ∈ other.visited ↔ place ∈ walk.visited)
  files : other.files = walk.files
  warnings : other.warnings = walk.warnings

/-- Whether something was at an entry before. -/
def Leg.isPresent (before : FileSystem) (leg : Leg) : Bool :=
  (before.entryAt? leg.visit.location).isSome

variable {query : Query} {before after : FileSystem} {leg : Leg} {stop : Stop}
  {walk other : Walk} {place : Location}

/-- Walks that are alike take the same file. -/
theorem Alike.withFile (alike : Alike before walk other) (path : Path) :
    Alike before (walk.withFile query path) (other.withFile query path) := by
  refine ⟨?_, ?_, ?_⟩
  · simpa using alike.visited
  · rw [Walk.files_withFile, Walk.files_withFile, alike.files]
  · simpa using alike.warnings

/-- Walks that are alike take the same warning. -/
theorem Alike.withWarning (alike : Alike before walk other) (warning : Warning) :
    Alike before (walk.withWarning warning) (other.withWarning warning) :=
  ⟨alike.visited, alike.files, congrArg (warning :: ·) alike.warnings⟩

/-- Walks that are alike enter the same directory. -/
theorem Alike.enter (alike : Alike before walk other) (location : Location) :
    Alike before (walk.enter location) (other.enter location) := by
  refine ⟨fun place there => ?_, ?_, ?_⟩
  · rw [mem_visited_enter, mem_visited_enter, alike.visited place there]
  · simpa using alike.files
  · simpa using alike.warnings

/-- A directory that was not there before may be entered by one of the walks. -/
theorem Alike.enter_new (alike : Alike before walk other)
    (new : before.entryAt? place = none) : Alike before walk (other.enter place) := by
  refine ⟨fun location there => ?_, ?_, ?_⟩
  · rw [mem_visited_enter, alike.visited location there]
    exact or_iff_right fun same => there (same ▸ new)
  · simpa using alike.files
  · simpa using alike.warnings

namespace Unnoticed

/-- What was there is still there. -/
theorem stays (unnoticed : Unnoticed query before after)
    (there : before.entryAt? place ≠ none) : after.entryAt? place ≠ none := by
  obtain ⟨entry, found⟩ := Option.ne_none_iff_exists'.mp there
  rcases unnoticed.changes place with settled | ⟨_, _, content, _, _, _, held⟩
  · simp [settled.entryAt? found]
  · simp [held]

/-- A file stays one, whatever is written into it. -/
theorem file_stays (unnoticed : Unnoticed query before after) {content : Content}
    (found : before.entryAt? place = some (.file content)) :
    ∃ content, after.entryAt? place = some (.file content) := by
  rcases unnoticed.changes place with settled | ⟨_, _, content, _, _, _, held⟩
  · exact ⟨content, settled.entryAt? found⟩
  · exact ⟨content, held⟩

/-- The entries of a directory that were there before are the ones that it had. -/
theorem filter_legs (unnoticed : Unnoticed query before after) (stop : Stop) :
    (stop.legs after).filter (Leg.isPresent before) = stop.legs before := by
  rw [Stop.legs, Stop.legs, ← FileSystem.filter_names_eq (fun _ => unnoticed.stays) stop.location,
    List.filter_map]
  rfl

/-- At what was there before, a walk enters the same directory as it did, and finds the same. -/
theorem step_present (unnoticed : Unnoticed query before after)
    (present : leg.isPresent before = true)
    (linked : ∀ target, before.entryAt? leg.visit.location = some (.link target) →
      after.find leg.visit.path = before.find leg.visit.path)
    (alike : Alike before walk other) :
    leg.next? after other = leg.next? before walk ∧
      Alike before (step before query leg.visit walk).2 (step after query leg.visit other).2 := by
  obtain ⟨entry, found⟩ := Option.isSome_iff_exists.mp present
  cases entry with
  | file content =>
      obtain ⟨content, held⟩ := unnoticed.file_stays found
      simp only [Leg.next?, step, found, held]
      exact ⟨trivial, alike.withFile _⟩
  | directory =>
      have held := unnoticed.keeps.directory _ found
      cases refused : FileSystem.refusal? leg.visit.path with
      | some error =>
          simp only [Leg.next?, step, found, held, refused]
          exact ⟨trivial, alike.withWarning _⟩
      | none =>
          simp only [Leg.next?, step, found, held, refused]
          exact ⟨trivial, alike.enter _⟩
  | link target =>
      have held := unnoticed.keeps.link _ _ found
      have same := linked target found
      cases led : before.find leg.visit.path with
      | error error =>
          rw [led] at same
          simp only [Leg.next?, step, found, held, led, same]
          exact ⟨trivial, alike.withWarning _⟩
      | ok reached =>
          obtain ⟨location, entry⟩ := reached
          rw [led] at same
          cases entry with
          | file content =>
              simp only [Leg.next?, step, found, held, led, same]
              exact ⟨trivial, alike.withFile _⟩
          | link target =>
              simp only [Leg.next?, step, found, held, led, same]
              exact ⟨trivial, alike⟩
          | directory =>
              have there := FileSystem.entryAt?_of_find led
              have visited : other.visited.contains location = walk.visited.contains location := by
                rw [Bool.eq_iff_iff, List.contains_iff_mem, List.contains_iff_mem]
                exact alike.visited location (by simp [there])
              simp only [Leg.next?, step, found, held, led, same, visited]
              refine ⟨trivial, ?_⟩
              split
              · exact alike.withWarning _
              · split
                · exact ⟨alike.visited, alike.files, alike.warnings⟩
                · exact alike.enter _

/-- At what is new, a walk comes to nothing that was there before, and finds nothing. -/
theorem step_absent (unnoticed : Unnoticed query before after) (tree : before.IsTree)
    (absent : leg.isPresent before = false)
    (short : before.entryAt? leg.visit.location = none →
      after.entryAt? leg.visit.location = some .directory →
        FileSystem.refusal? leg.visit.path = none)
    (alike : Alike before walk other) :
    (leg.further after other).filter (Leg.isPresent before) = [] ∧
      Alike before walk (step after query leg.visit other).2 := by
  have vacant : before.entryAt? leg.visit.location = none := by
    simpa [Leg.isPresent] using absent
  rcases unnoticed.changes leg.visit.location with
    (same | ⟨_, made⟩) | ⟨directory, name, content, whole, proper, plain, held⟩
  · rw [vacant] at same
    simp only [Leg.further, Leg.next?, step, same]
    exact ⟨rfl, alike⟩
  · have allowed := short vacant made
    have place : leg.stop.entrance.location ++ leg.trail = leg.visit.location :=
      (List.append_assoc _ _ _).symm
    rw [Leg.further, next?_of_directory made allowed]
    simp only [step, made, allowed]
    refine ⟨List.filter_eq_nil_iff.mpr fun inner inside present => ?_, alike.enter_new vacant⟩
    -- What is in a directory that was not there before was not there either.
    obtain ⟨entry, found⟩ := Option.isSome_iff_exists.mp present
    have within : inner.visit.location = leg.visit.location ++ [inner.name] := by
      rw [← place]
      exact congrArg (fun stop => stop.location ++ [inner.name]) (stop_of_mem_legs inside)
    rw [within] at found
    rw [tree.directory_above (by simp) found] at vacant
    cases vacant
  · obtain ⟨_, last⟩ := List.append_inj' whole rfl
    have own : leg.name = name := List.singleton_inj.mp last
    have nothing : hasExtension leg.visit.path query.extensions = false := by
      rw [← Bool.not_eq_true]
      exact fun counts =>
        plain (own ▸ (hasExtension_join (own ▸ proper) leg.stop.path _).mp counts)
    simp only [Leg.further, Leg.next?, step, held, Walk.withFile, nothing]
    exact ⟨rfl, alike⟩

/-- A walk along the entries that were there before finds what a walk along all entries finds. -/
theorem alike_walkAll (unnoticed : Unnoticed query before after) (tree : before.IsTree)
    {legs : List Leg} (alike : Alike before walk other)
    (links : ∀ turn ∈ course before query (legs.filter (Leg.isPresent before)) walk, ∀ target,
      before.entryAt? turn.1.visit.location = some (.link target) →
        after.find turn.1.visit.path = before.find turn.1.visit.path)
    (short : ∀ turn ∈ course after query legs other,
      before.entryAt? turn.1.visit.location = none →
        after.entryAt? turn.1.visit.location = some .directory →
          FileSystem.refusal? turn.1.visit.path = none) :
    Alike before
      (walkAll before query ((legs.filter (Leg.isPresent before)).map Leg.visit) walk)
      (walkAll after query (legs.map Leg.visit) other) := by
  induction legs, other using course.induct after query generalizing walk with
  | case1 other =>
      rw [List.filter_nil, List.map_nil, walkAll, walkAll]
      exact alike
  | case2 other leg rest hypothesis =>
      rw [course_cons] at short
      obtain ⟨shortHere, shortLater⟩ := List.forall_mem_cons.mp short
      rw [walkAll_cons]
      cases present : leg.isPresent before with
      | true =>
          rw [List.filter_cons_of_pos present] at links ⊢
          rw [course_cons] at links
          obtain ⟨linked, linksLater⟩ := List.forall_mem_cons.mp links
          obtain ⟨ends, stepped⟩ := unnoticed.step_present present linked alike
          have further : (leg.further after other ++ rest).filter (Leg.isPresent before) =
              leg.further before walk ++ rest.filter (Leg.isPresent before) := by
            rw [List.filter_append, Leg.further, Leg.further, ends]
            cases leg.next? before walk with
            | none => rfl
            | some stop => exact congrArg (· ++ _) (unnoticed.filter_legs stop)
          rw [← further] at linksLater
          rw [walkAll_cons, ← further]
          exact hypothesis stepped linksLater shortLater
      | false =>
          obtain ⟨none, stepped⟩ := unnoticed.step_absent tree present shortHere alike
          have further : (leg.further after other ++ rest).filter (Leg.isPresent before) =
              rest.filter (Leg.isPresent before) := by
            rw [List.filter_append, none, List.nil_append]
          rw [List.filter_cons_of_neg (by simp [present])] at links ⊢
          rw [← further] at links ⊢
          exact hypothesis stepped links shortLater

/-- The walks start alike. -/
theorem alike_opening (unnoticed : Unnoticed query before after) (tree : before.IsTree)
    (treeAfter : after.IsTree) (location : Location) :
    Alike before (opening before query location) (opening after query location) := by
  refine ⟨fun place there => ?_, rfl, rfl⟩
  simp only [opening]
  rw [mem_ownDirectories, mem_ownDirectories]
  refine or_congr_right' fun other => exists_congr fun names => and_congr_right fun below => ?_
  have proper : place ≠ [] := by
    intro bottom
    rw [bottom] at below
    exact other (bottom.trans (List.append_eq_nil_iff.mp below.symm).1.symm)
  rw [tree.mem_entries_iff proper, treeAfter.mem_entries_iff proper]
  refine and_congr_left fun _ => ⟨fun held => ?_, unnoticed.keeps.directory place⟩
  obtain ⟨entry, found⟩ := Option.ne_none_iff_exists'.mp there
  cases entry with
  | directory => exact found
  | file content =>
      obtain ⟨_, file⟩ := unnoticed.file_stays found
      rw [held] at file
      cases file
  | link target =>
      have linked := unnoticed.keeps.link _ _ found
      rw [held] at linked
      cases linked

end Unnoticed

/-- The entries that a walk from the root comes to are those of the directories that the discovery
enters. -/
theorem exists_stop_of_mem_course {files : FileSystem} {location : Location}
    (root : files.find query.root = .ok (location, .directory)) {turn : Leg × Option Stop}
    (inside : turn ∈ course files query ((top query location).legs files)
      (opening files query location)) :
    ∃ stop ∈ stops files query, turn.1 ∈ stop.legs files := by
  have listed := map_fst_course_perm.mem_iff.mp (List.mem_map_of_mem inside)
  rw [← List.flatMap_cons, ← stops_of_find root] at listed
  exact List.mem_flatMap.mp listed

/-- A discovery that notices no change has the same outcome once more. -/
theorem Unnoticed.ofQuery_eq (unnoticed : Unnoticed query before after) (tree : before.IsTree)
    (treeAfter : after.IsTree) : (ofQuery after query).1 = (ofQuery before query).1 := by
  cases found : before.find query.root with
  | error error =>
      have same := unnoticed.root.trans found
      simp only [ofQuery, found, same]
  | ok reached =>
      obtain ⟨location, entry⟩ := reached
      have same := unnoticed.root.trans found
      cases entry with
      | file content => simp only [ofQuery, found, same]
      | link target => simp only [ofQuery, found, same]
      | directory =>
          have alike : Alike before (walkFrom before query location)
              (walkFrom after query location) := by
            rw [walkFrom_eq, walkFrom_eq, ← unnoticed.filter_legs]
            refine unnoticed.alike_walkAll tree
              (unnoticed.alike_opening tree treeAfter location) ?_ ?_
            · intro turn inside
              rw [unnoticed.filter_legs] at inside
              obtain ⟨stop, entered, own⟩ := exists_stop_of_mem_course found inside
              exact unnoticed.links stop entered turn.1 own
            · intro turn inside
              obtain ⟨stop, entered, own⟩ := exists_stop_of_mem_course same inside
              exact unnoticed.short stop entered turn.1 own
          simp only [ofQuery, found, same, alike.files, alike.warnings]

/-- The documents of a discovery are what they were if the changes go unnoticed. -/
theorem Unnoticed.load_eq (unnoticed : Unnoticed query before after) (tree : before.IsTree)
    {discovery : Discovery} {log : List Event}
    (outcome : ofQuery before query = (.ok discovery, log)) {file : SchemaFile}
    (inside : file ∈ discovery.files) : file.load after = file.load before := by
  obtain ⟨leg, counts, rfl⟩ :=
    List.mem_map.mp ((files_perm_of_ofQuery outcome).mem_iff.mp inside)
  obtain ⟨present, document⟩ := List.mem_filter.mp counts
  obtain ⟨stop, entered, own⟩ := List.mem_flatMap.mp present
  obtain ⟨name, listed, rfl⟩ := List.mem_map.mp own
  obtain ⟨proper, named⟩ := tree.named_of_mem listed
  obtain ⟨extension, regular⟩ := isDocument_iff.mp document
  have same : after.find (Leg.mk stop name).visit.path =
      before.find (Leg.mk stop name).visit.path := by
    cases regular with
    | linked held => exact unnoticed.links stop entered _ own _ held
    | plain held =>
        refine FileSystem.find_eq_of_comesTo unnoticed.keeps fun place comes => ?_
        have led := (sound_of_mem_stops tree entered).find
        obtain rfl := comes.eq_of_find (FileSystem.find_join_file proper named led comes.1 held)
        rcases unnoticed.changes (stop.location ++ [name]) with
          settled | ⟨_, other, _, whole, _, plain, _⟩
        · exact (settled.entryAt? held).trans held.symm
        · obtain rfl := List.singleton_inj.mp (List.append_inj' whole rfl).2
          exact absurd ((hasExtension_join proper _ _).mp extension) plain
  have path : (Leg.document query ⟨stop, name⟩).path = (Leg.mk stop name).visit.path := rfl
  unfold SchemaFile.load FileSystem.read
  rw [path, same]

end Discovery

end SchemaBeans
