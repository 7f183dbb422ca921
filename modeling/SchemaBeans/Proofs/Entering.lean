import Mathlib.Data.List.Nodup
import Mathlib.Data.List.Perm.Subperm
import SchemaBeans.Proofs.Documents

/-!
# Directories that are entered twice

A discovery enters a directory twice only where one entrance is below another by own
names: a link may lead into a directory before the walk comes to it by own names,
through another link that leads to a directory above it. Where entrances are apart,
every directory is entered once, and no two documents have their directory and their
name in common.
-/

namespace SchemaBeans.Discovery

/-- The root of a walk. -/
def top (query : Query) (location : Location) : Stop := ⟨⟨query.root, location⟩, [], []⟩

/-- A walk that has not yet looked at an entry. -/
def opening (files : FileSystem) (query : Query) (location : Location) : Walk :=
  ⟨ownDirectories files query.root location, [], [], []⟩

/-- The directories that a discovery enters, in the order in which it enters them. -/
def stops (files : FileSystem) (query : Query) : List Stop :=
  match files.find query.root with
  | .ok (location, .directory) =>
      top query location :: entered files query ((top query location).legs files)
        (opening files query location)
  | _ => []

/-- No entrance of a discovery is below another by own names. -/
def EntrancesApart (files : FileSystem) (query : Query) : Prop :=
  ∀ outer ∈ stops files query, ∀ inner ∈ stops files query,
    inner.entrance.location ∈
        ownDirectories files outer.entrance.path outer.entrance.location →
      inner.entrance.location = outer.entrance.location

instance (files : FileSystem) (query : Query) : Decidable (EntrancesApart files query) :=
  inferInstanceAs (Decidable (∀ outer ∈ stops files query, ∀ inner ∈ stops files query, _ → _))

variable {files : FileSystem} {query : Query} {location : Location} {stop : Stop} {walk : Walk}
  {names : List String} {name : String}

/-- A walk stops at the root of its query and at the directories that it enters from there. -/
theorem stops_of_find (found : files.find query.root = .ok (location, .directory)) :
    stops files query = top query location :: entered files query ((top query location).legs files)
      (opening files query location) := by
  simp [stops, found]

/-- Where the root is a directory, discovery gives what its walk finds. -/
theorem ofQuery_of_find (query : Query)
    (found : files.find query.root = .ok (location, .directory)) :
    ∃ log, ofQuery files query =
      (.ok ⟨sorted (walkFrom files query location).files.reverse,
        (walkFrom files query location).warnings.reverse⟩, log) := by
  simp [ofQuery, found]

/-- A discovery with an outcome finds nothing where there is no root, or walks through it. -/
theorem ofQuery_cases {discovery : Discovery} {log : List Event}
    (outcome : ofQuery files query = (.ok discovery, log)) :
    (∃ error, files.find query.root = .error error) ∧ discovery = empty ∨
      ∃ location, files.find query.root = .ok (location, .directory) ∧
        discovery = ⟨sorted (walkFrom files query location).files.reverse,
          (walkFrom files query location).warnings.reverse⟩ := by
  unfold ofQuery at outcome
  split at outcome
  · next error missing =>
      cases outcome
      exact .inl ⟨⟨error, missing⟩, rfl⟩
  · next location root =>
      cases outcome
      exact .inr ⟨location, root, rfl⟩
  · cases outcome

/-- A discovery that enters a directory has a directory for its root. -/
theorem exists_root (inside : stop ∈ stops files query) :
    ∃ location, files.find query.root = .ok (location, .directory) := by
  unfold stops at inside
  split at inside
  · next location found => exact ⟨location, found⟩
  · cases inside

/-- What a discovery enters is where its path leads. -/
theorem sound_of_mem_stops (tree : files.IsTree) (inside : stop ∈ stops files query) :
    stop.Sound files := by
  obtain ⟨location, found⟩ := exists_root inside
  rw [stops_of_find found] at inside
  have topSound : (top query location).Sound files := by
    intro front above
    obtain rfl := List.prefix_nil.mp above
    rw [List.append_nil]
    exact found
  rcases List.mem_cons.mp inside with rfl | later
  · exact topSound
  · refine sound_of_mem_entered tree ?_ later
    intro leg own
    obtain ⟨name, listed, rfl⟩ := List.mem_map.mp own
    exact ⟨topSound, listed⟩

/-- A discovery enters no directory twice from one entrance, and comes to no entrance twice. -/
theorem pairwise_stops (files : FileSystem) (query : Query) :
    (stops files query).Pairwise fun left right =>
      ¬ (left.entrance.location = right.entrance.location ∧ left.names = right.names) := by
  unfold stops
  split
  · next location found =>
      have known : location ∈ (opening files query location).visited := List.mem_cons_self
      refine List.pairwise_cons.mpr ⟨?_, pairwise_entered ⟨apart_legs files _, ?_⟩⟩
      · rintro later inside ⟨same, names⟩
        rcases exists_origin inside with ⟨leg, own, _, above⟩ | ⟨fresh, _⟩
        · exact not_trail_prefix_names own (names ▸ above)
        · exact fresh (same ▸ known)
      · intro leg own
        rw [stop_of_mem_legs own]
        exact known
  · exact .nil

/-- The entrance of what a discovery enters is entered. -/
theorem exists_entrance (inside : stop ∈ stops files query) :
    ∃ start ∈ stops files query, start.entrance = stop.entrance ∧ start.names = [] := by
  obtain ⟨location, found⟩ := exists_root inside
  rw [stops_of_find found] at inside ⊢
  rcases List.mem_cons.mp inside with rfl | later
  · exact ⟨_, List.mem_cons_self, rfl, rfl⟩
  · rcases exists_origin later with ⟨leg, own, same, _⟩ | ⟨_, start, starts, same, above⟩
    · rw [stop_of_mem_legs own] at same
      exact ⟨_, List.mem_cons_self, same, rfl⟩
    · exact ⟨start, List.mem_cons_of_mem _ starts, same, above⟩

/-- A discovery looks at the entries of what it enters. -/
theorem exists_turn (found : files.find query.root = .ok (location, .directory))
    (inside : stop ∈ stops files query) {leg : Leg} (own : leg ∈ stop.legs files) :
    ∃ next, (leg, next) ∈ course files query ((top query location).legs files)
      (opening files query location) := by
  rw [stops_of_find found] at inside
  have looked : leg ∈ (course files query ((top query location).legs files)
      (opening files query location)).map Prod.fst := by
    rw [map_fst_course_perm.mem_iff, List.mem_append, List.mem_flatMap]
    rcases List.mem_cons.mp inside with rfl | later
    · exact .inl own
    · exact .inr ⟨stop, later, own⟩
  obtain ⟨⟨_, next⟩, turn, rfl⟩ := List.mem_map.mp looked
  exact ⟨next, turn⟩

/-- What a walk enters at an entry of its course is one of its stops. -/
theorem mem_stops_of_turn (found : files.find query.root = .ok (location, .directory)) {leg : Leg}
    (turn : (leg, some stop) ∈ course files query ((top query location).legs files)
      (opening files query location)) : stop ∈ stops files query := by
  rw [stops_of_find found]
  exact List.mem_cons_of_mem _ (List.mem_filterMap.mpr ⟨_, turn, rfl⟩)

/-- Below what a discovery enters, it enters the directories whose paths are not too long. -/
theorem exists_stop_below (inside : stop ∈ stops files query)
    (there : files.entryAt? (stop.location ++ [name]) = some .directory)
    (allowed : FileSystem.refusal? (stop.path.join ⟨name⟩) = none) :
    ∃ next ∈ stops files query, next.entrance = stop.entrance ∧
      next.names = stop.names ++ [name] := by
  obtain ⟨location, found⟩ := exists_root inside
  obtain ⟨next, turn⟩ :=
    exists_turn found inside (mem_legs (FileSystem.mem_names_of_entryAt? there))
  obtain ⟨walk, decided⟩ := exists_walk_of_mem_course turn
  obtain rfl : next = some ⟨stop.entrance, stop.names ++ [name], stop.location :: stop.within⟩ :=
    decided.trans (next?_of_directory there allowed)
  exact ⟨_, mem_stops_of_turn found turn, rfl, rfl⟩

/-- From an entrance on, a discovery enters what names lead to through directories whose paths are
not too long. -/
theorem exists_stop_of_names (inside : stop ∈ stops files query)
    (below : ∀ front, front ≠ [] → front <+: names →
      files.entryAt? (stop.entrance.location ++ front) = some .directory ∧
        FileSystem.refusal? (stop.entrance.path.descend front) = none) :
    ∃ next ∈ stops files query, next.entrance = stop.entrance ∧ next.names = names := by
  induction names using List.reverseRecOn with
  | nil => exact exists_entrance inside
  | append_singleton names name hypothesis =>
      obtain ⟨upper, entered, same, reached⟩ := hypothesis fun front given above =>
        below front given (above.trans (List.prefix_append _ _))
      obtain ⟨there, allowed⟩ := below (names ++ [name]) (by simp) (List.prefix_refl _)
      rw [← List.append_assoc] at there
      rw [Path.descend_concat] at allowed
      rw [← same, ← reached] at there allowed
      obtain ⟨next, enteredToo, sameToo, reachedToo⟩ := exists_stop_below entered there allowed
      exact ⟨next, enteredToo, sameToo.trans same, by rw [reachedToo, reached]⟩

section Own

variable {path : Path} {place : Location}

/-- The own directories of a directory are itself and the listed ones below it whose paths are not
too long. -/
theorem mem_ownDirectories : place ∈ ownDirectories files path location ↔
    place = location ∨ ∃ names, place = location ++ names ∧
      (place, Entry.directory) ∈ files.entries ∧
      FileSystem.refusal? (path.descend names) = none := by
  rw [ownDirectories, List.mem_cons, List.mem_map]
  refine or_congr_right ?_
  constructor
  · rintro ⟨⟨_, entry⟩, listed, rfl⟩
    simp only [List.mem_filter, Bool.and_eq_true, List.isPrefixOf_iff_prefix,
      decide_eq_true_eq, Option.isNone_iff_eq_none] at listed
    obtain ⟨listed, ⟨⟨names, rfl⟩, rfl⟩, allowed⟩ := listed
    rw [List.drop_left] at allowed
    exact ⟨names, rfl, listed, allowed⟩
  · rintro ⟨names, rfl, listed, allowed⟩
    refine ⟨_, List.mem_filter.mpr ⟨listed, ?_⟩, rfl⟩
    simp [List.isPrefixOf_iff_prefix, allowed]

/-- What is on the way from an entrance to what a discovery enters is an own directory of the
entrance. -/
theorem Stop.Sound.mem_ownDirectories (sound : stop.Sound files) (above : names <+: stop.names) :
    stop.entrance.location ++ names ∈
      ownDirectories files stop.entrance.path stop.entrance.location := by
  have found := sound names above
  by_cases proper : stop.entrance.location ++ names = []
  · obtain ⟨bottom, rfl⟩ := List.append_eq_nil_iff.mp proper
    exact Discovery.mem_ownDirectories.mpr (.inl (List.append_nil _))
  · refine Discovery.mem_ownDirectories.mpr (.inr ⟨names, rfl, ?_, ?_⟩)
    · exact FileSystem.mem_entries_of_entryAt? (FileSystem.entryAt?_of_find found) proper
    · exact FileSystem.refusal?_of_find found

/-- A discovery enters all own directories of its entrances. -/
theorem exists_stop_of_ownDirectories (tree : files.IsTree) (inside : stop ∈ stops files query)
    (own : place ∈ ownDirectories files stop.entrance.path stop.entrance.location) :
    ∃ next ∈ stops files query, next.entrance = stop.entrance ∧ next.location = place := by
  rcases mem_ownDirectories.mp own with rfl | ⟨names, rfl, listed, allowed⟩
  · obtain ⟨next, entered, same, above⟩ := exists_entrance inside
    exact ⟨next, entered, same, by rw [Stop.location, same, above, List.append_nil]⟩
  · have proper : ∀ name ∈ names, Path.IsName name := by
      intro name part
      exact (tree.named _ listed name (List.mem_append_right _ part)).1
    have found := sound_of_mem_stops tree inside [] List.nil_prefix
    have given := (FileSystem.refusal?_eq_none_iff.mp (FileSystem.refusal?_of_find found)).1
    have below : ∀ front, front ≠ [] → front <+: names →
        files.entryAt? (stop.entrance.location ++ front) = some .directory ∧
          FileSystem.refusal? (stop.entrance.path.descend front) = none := by
      rintro front more ⟨rest, rfl⟩
      refine ⟨?_, FileSystem.refusal?_of_descend_append given proper allowed⟩
      have there := tree.entryAt?_of_mem listed (by simp [more])
      by_cases whole : rest = []
      · rwa [whole, List.append_nil] at there
      · rw [← List.append_assoc] at there
        exact tree.directory_above whole there
    obtain ⟨next, entered, same, reached⟩ := exists_stop_of_names inside below
    exact ⟨next, entered, same, by rw [Stop.location, same, reached]⟩

/-- Below entrances that are apart, the location of a directory tells its entrance. -/
theorem EntrancesApart.eq_of_location (apart : EntrancesApart files query) (tree : files.IsTree)
    {left right : Stop} (leftEntered : left ∈ stops files query)
    (rightEntered : right ∈ stops files query) (same : left.location = right.location) :
    left.entrance.location = right.entrance.location ∧ left.names = right.names := by
  have upper : ∀ {outer inner : Stop}, outer ∈ stops files query → inner ∈ stops files query →
      outer.location = inner.location → outer.entrance.location <+: inner.entrance.location →
      inner.entrance.location = outer.entrance.location := by
    rintro outer inner outerEntered innerEntered same ⟨names, between⟩
    have above : names <+: outer.names := by
      have whole : outer.entrance.location ++ (names ++ inner.names) =
          outer.entrance.location ++ outer.names := by
        rw [← List.append_assoc, between]
        exact same.symm
      exact ⟨inner.names, List.append_cancel_left whole⟩
    have own := (sound_of_mem_stops tree outerEntered).mem_ownDirectories above
    rw [between] at own
    exact apart outer outerEntered inner innerEntered own
  have entrances : left.entrance.location = right.entrance.location := by
    have leftAbove : left.entrance.location <+: right.location :=
      same ▸ List.prefix_append _ _
    have rightAbove : right.entrance.location <+: right.location := List.prefix_append _ _
    rcases List.prefix_or_prefix_of_prefix leftAbove rightAbove with below | below
    · exact (upper leftEntered rightEntered same below).symm
    · exact upper rightEntered leftEntered same.symm below
  refine ⟨entrances, ?_⟩
  rw [Stop.location, Stop.location, entrances] at same
  exact List.append_cancel_left same

/-- A discovery enters every directory once exactly when its entrances are apart. -/
theorem nodup_location_stops_iff (tree : files.IsTree) :
    ((stops files query).map Stop.location).Nodup ↔ EntrancesApart files query := by
  constructor
  · intro once outer outerEntered inner innerEntered own
    obtain ⟨start, starts, sameStart, top⟩ := exists_entrance innerEntered
    obtain ⟨next, entered, sameNext, reached⟩ :=
      exists_stop_of_ownDirectories tree outerEntered own
    have place : start.location = next.location := by
      rw [reached, Stop.location, sameStart, top, List.append_nil]
    obtain rfl := List.inj_on_of_nodup_map once starts entered place
    rw [← sameStart, sameNext]
  · intro apart
    refine List.pairwise_map.mpr ((pairwise_stops files query).imp_of_mem ?_)
    intro left right leftEntered rightEntered different same
    exact different (apart.eq_of_location tree leftEntered rightEntered same)

end Own

section Documents

variable {discovery : Discovery} {log : List Event}

/-- A walk from the root is one over the entries of the root. -/
theorem walkFrom_eq (files : FileSystem) (query : Query) (location : Location) :
    walkFrom files query location =
      walkAll files query (((top query location).legs files).map Leg.visit)
        (opening files query location) := by
  have place : (top query location).location = location := List.append_nil _
  rw [map_visit_legs, place]
  rfl

/-- The documents of a discovery are those at the entries of the directories that it enters. -/
theorem files_perm_of_ofQuery (outcome : ofQuery files query = (.ok discovery, log)) :
    discovery.files.Perm ((((stops files query).flatMap (Stop.legs files)).filter
      (Leg.isDocument files query)).map (Leg.document query)) := by
  rcases ofQuery_cases outcome with ⟨⟨error, missing⟩, rfl⟩ | ⟨location, root, rfl⟩
  · simp [stops, missing, empty]
  · refine (List.mergeSort_perm _ _).trans ?_
    rw [walkFrom_eq, files_walkAll, stops_of_find root, List.flatMap_cons]
    simp only [opening, List.append_nil, List.reverse_reverse]
    exact (map_fst_course_perm.filter _).map _

/-- The documents of a discovery are at entries of the directories that it enters, and each
entry brings at most one, as often as its directory is entered. -/
theorem exists_legs_of_ofQuery (outcome : ofQuery files query = (.ok discovery, log)) :
    ∃ found : List Leg,
      discovery.files.Perm (found.map fun leg => SchemaFile.below query.root leg.visit.path) ∧
      found.Subperm ((stops files query).flatMap (Stop.legs files)) :=
  ⟨_, files_perm_of_ofQuery outcome, List.filter_sublist.subperm⟩

/-- Where directories are entered once, their entries are all different. -/
theorem pairwise_legs (once : ((stops files query).map Stop.location).Nodup) :
    ((stops files query).flatMap (Stop.legs files)).Pairwise fun left right =>
      ¬ (left.stop.location = right.stop.location ∧ left.name = right.name) := by
  refine List.pairwise_flatMap.mpr ⟨?_, ?_⟩
  · intro stop _
    refine List.pairwise_map.mpr ((nodup_names files stop.location).imp ?_)
    rintro left right different ⟨_, same⟩
    exact different same
  · refine (List.pairwise_map.mp once).imp ?_
    rintro left right different leg own other ownToo ⟨same, _⟩
    rw [stop_of_mem_legs own, stop_of_mem_legs ownToo] at same
    exact different same

/-- An entry of a stop lies in the directory there. -/
theorem liesIn_of_mem_legs (tree : files.IsTree) (entered : stop ∈ stops files query) {leg : Leg}
    (own : leg ∈ stop.legs files) :
    files.LiesIn leg.visit.path leg.stop.location leg.name := by
  obtain ⟨name, listed, rfl⟩ := List.mem_map.mp own
  exact ⟨(tree.named_of_mem listed).1, stop.path, rfl, (sound_of_mem_stops tree entered).find⟩

end Documents

/-- A discovery enters every directory once exactly when none of its entrances, the root and what
links lead to, is below another by own names. Then no two documents have their directory and their
name in common. -/
theorem directories_entered_once_iff (files : FileSystem) (query : Query) (tree : files.IsTree) :
    (∀ stop ∈ stops files query, files.find stop.path = .ok (stop.location, .directory)) ∧
      (((stops files query).map Stop.location).Nodup ↔ EntrancesApart files query) ∧
      ∀ discovery log, ofQuery files query = (.ok discovery, log) →
        (∀ file ∈ discovery.files, ∃ stop ∈ stops files query, ∃ name,
          files.LiesIn file.path stop.location name) ∧
        (EntrancesApart files query → discovery.files.Pairwise fun left right =>
          ∀ directory name, files.LiesIn left.path directory name →
            ¬ files.LiesIn right.path directory name) := by
  refine ⟨fun stop entered => (sound_of_mem_stops tree entered).find,
    nodup_location_stops_iff tree, ?_⟩
  intro discovery log outcome
  obtain ⟨found, perm, part⟩ := exists_legs_of_ofQuery outcome
  have lies : ∀ leg ∈ found, ∃ stop ∈ stops files query, leg.stop = stop ∧
      files.LiesIn leg.visit.path leg.stop.location leg.name := by
    intro leg present
    obtain ⟨stop, entered, own⟩ := List.mem_flatMap.mp (part.subset present)
    exact ⟨stop, entered, stop_of_mem_legs own, liesIn_of_mem_legs tree entered own⟩
  constructor
  · intro file inside
    obtain ⟨leg, present, rfl⟩ := List.mem_map.mp (perm.mem_iff.mp inside)
    obtain ⟨stop, entered, rfl, there⟩ := lies leg present
    exact ⟨leg.stop, entered, leg.name, there⟩
  · intro apart
    obtain ⟨ordered, same, part⟩ := part
    have different : found.Pairwise fun left right =>
        ¬ (left.stop.location = right.stop.location ∧ left.name = right.name) := by
      refine (same.pairwise_iff ?_).mp
        ((pairwise_legs ((nodup_location_stops_iff tree).mpr apart)).sublist part)
      rintro left right different ⟨place, name⟩
      exact different ⟨place.symm, name.symm⟩
    refine (perm.pairwise_iff ?_).mpr (List.pairwise_map.mpr (different.imp_of_mem ?_))
    · intro left right different directory name there thereToo
      exact different directory name thereToo there
    · intro left right leftFound rightFound different directory name there thereToo
      obtain ⟨_, _, _, leftLies⟩ := lies left leftFound
      obtain ⟨_, _, _, rightLies⟩ := lies right rightFound
      obtain ⟨leftPlace, leftName⟩ := leftLies.unique there
      obtain ⟨rightPlace, rightName⟩ := rightLies.unique thereToo
      exact different ⟨leftPlace.trans rightPlace.symm, leftName.trans rightName.symm⟩

/-- Two links lead to a directory of items, and a third one back to the root. -/
def linkedTwice : FileSystem :=
  ⟨[(["items"], .directory), (["items", "item.yaml"], .file (.text "typeName: Item\n")),
    (["schemas"], .directory), (["schemas", "order.yaml"], .file (.text "typeName: Order\n")),
    (["schemas", "first"], .link ⟨"../items"⟩), (["schemas", "second"], .link ⟨"../items"⟩),
    (["schemas", "third"], .link ⟨"../schemas"⟩)], []⟩

/-- The documents of `linkedTwice`, two of them, are found once. -/
theorem linkedTwice_entered_once :
    linkedTwice.IsTree ∧
      ((stops linkedTwice ⟨⟨"schemas"⟩, ["yaml"]⟩).map Stop.location).Nodup ∧
      ∃ discovery log, ofQuery linkedTwice ⟨⟨"schemas"⟩, ["yaml"]⟩ = (.ok discovery, log) ∧
        discovery.files.length = 2 ∧ discovery.files.Pairwise fun left right =>
          ∀ directory name, linkedTwice.LiesIn left.path directory name →
            ¬ linkedTwice.LiesIn right.path directory name := by
  have tree : linkedTwice.IsTree := by decide +kernel
  have apart : EntrancesApart linkedTwice ⟨⟨"schemas"⟩, ["yaml"]⟩ := by decide +kernel
  have root : linkedTwice.find ⟨"schemas"⟩ = .ok (["schemas"], .directory) := by decide +kernel
  have many : (walkFrom linkedTwice ⟨⟨"schemas"⟩, ["yaml"]⟩ ["schemas"]).files.length = 2 := by
    decide +kernel
  obtain ⟨log, outcome⟩ := ofQuery_of_find ⟨⟨"schemas"⟩, ["yaml"]⟩ root
  obtain ⟨_, once, documents⟩ :=
    directories_entered_once_iff linkedTwice ⟨⟨"schemas"⟩, ["yaml"]⟩ tree
  refine ⟨tree, once.mpr apart, _, log, outcome, ?_, (documents _ log outcome).2 apart⟩
  rw [sorted, List.length_mergeSort, List.length_reverse, many]

/-- A link leads to a directory of items, and another one to the directory above it. -/
def linkedAbove : FileSystem :=
  ⟨[(["x"], .directory), (["x", "sub"], .directory),
    (["x", "sub", "item.yaml"], .file (.text "typeName: Item\n")),
    (["s"], .directory), (["s", "a"], .link ⟨"../x/sub"⟩), (["s", "b"], .link ⟨"../x"⟩)], []⟩

/-- The item of `linkedAbove` is found through the first link, and again below the second one. -/
theorem linkedAbove_entered_twice :
    ¬ ∀ (files : FileSystem) (query : Query), files.IsTree →
      ∀ discovery log, ofQuery files query = (.ok discovery, log) →
        ∀ left ∈ discovery.files, ∀ right ∈ discovery.files, ∀ directory name,
          files.LiesIn left.path directory name → files.LiesIn right.path directory name →
            left = right := by
  intro unique
  have root : linkedAbove.find ⟨"s"⟩ = .ok (["s"], .directory) := by decide +kernel
  have walked : (walkFrom linkedAbove ⟨⟨"s"⟩, ["yaml"]⟩ ["s"]).files =
      [⟨⟨"s/b/sub/item.yaml"⟩, ⟨"b/sub/item.yaml"⟩⟩, ⟨⟨"s/a/item.yaml"⟩, ⟨"a/item.yaml"⟩⟩] := by
    decide +kernel
  have first : linkedAbove.LiesIn ⟨"s/a/item.yaml"⟩ ["x", "sub"] "item.yaml" :=
    ⟨by decide, ⟨"s/a"⟩, by decide +kernel, by decide +kernel⟩
  have second : linkedAbove.LiesIn ⟨"s/b/sub/item.yaml"⟩ ["x", "sub"] "item.yaml" :=
    ⟨by decide, ⟨"s/b/sub"⟩, by decide +kernel, by decide +kernel⟩
  obtain ⟨log, outcome⟩ := ofQuery_of_find ⟨⟨"s"⟩, ["yaml"]⟩ root
  have same := unique linkedAbove _ (by decide +kernel) _ log outcome
    ⟨⟨"s/a/item.yaml"⟩, ⟨"a/item.yaml"⟩⟩ (by simp [sorted, walked])
    ⟨⟨"s/b/sub/item.yaml"⟩, ⟨"b/sub/item.yaml"⟩⟩ (by simp [sorted, walked]) _ _ first second
  exact absurd same (by decide)

end SchemaBeans.Discovery
