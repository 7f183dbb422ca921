import SchemaBeans.Discovery
import SchemaBeans.Proofs.Trees

/-!
# The course of a walk

`course` lists the entries that a walk looks at, each with the directory that the
walk enters there. From an entrance, the root or where a link led, the walk goes on
by own names until a link leads to another entrance, so a directory that it enters
is known by its entrance and the names below it. No two have both in common: an
entrance is never one that was visited, and its own names are gone through once.
-/

namespace SchemaBeans.Discovery

/-- A directory from which on a walk goes by own names: the root, or one that a link led to. -/
structure Entrance where
  path : Path
  location : Location
  deriving DecidableEq, Repr

/-- A directory that a walk enters, by own names from an entrance on. -/
structure Stop where
  entrance : Entrance
  names : List String
  /-- The directories that the walk is in besides this one, the innermost first. -/
  within : List Location
  deriving DecidableEq, Repr

namespace Stop

/-- The path under which the walk meets the directory. -/
def path (stop : Stop) : Path := stop.entrance.path.descend stop.names

def location (stop : Stop) : Location := stop.entrance.location ++ stop.names

end Stop

/-- An entry of a directory that a walk enters. -/
structure Leg where
  stop : Stop
  name : String
  deriving DecidableEq, Repr

/-- The entries of a directory that a walk enters. -/
def Stop.legs (files : FileSystem) (stop : Stop) : List Leg :=
  (files.names stop.location).map (Leg.mk stop)

namespace Leg

/-- The names that lead to the entry from the entrance on. -/
def trail (leg : Leg) : List String := leg.stop.names ++ [leg.name]

def visit (leg : Leg) : Visit :=
  ⟨leg.stop.path.join ⟨leg.name⟩, leg.name, leg.stop.location :: leg.stop.within⟩

/-- The directory that the walk enters at the entry. -/
def next? (files : FileSystem) (leg : Leg) (walk : Walk) : Option Stop :=
  match files.entryAt? leg.visit.location with
  | some .directory =>
      match FileSystem.refusal? leg.visit.path with
      | some _ => none
      | none => some ⟨leg.stop.entrance, leg.trail, leg.visit.within⟩
  | some (.link _) =>
      match files.find leg.visit.path with
      | .ok (location, .directory) =>
          if leg.visit.within.contains location || walk.visited.contains location then none
          else some ⟨⟨leg.visit.path, location⟩, [], leg.visit.within⟩
      | _ => none
  | _ => none

/-- The entries that come with an entry. -/
def further (files : FileSystem) (leg : Leg) (walk : Walk) : List Leg :=
  (leg.next? files walk).elim [] (Stop.legs files)

end Leg

variable {files : FileSystem} {query : Query} {leg : Leg} {legs rest : List Leg} {stop : Stop}
  {walk : Walk} {location : Location}

/-- The entries of a directory are the visits that a walk plans on entering it. -/
theorem map_visit_legs :
    (stop.legs files).map Leg.visit = children files stop.path stop.location stop.within := by
  simp [Stop.legs, children, Leg.visit]

/-- How a walk enters a directory at an entry: by its own name, or through a link. -/
inductive Leg.Enters (files : FileSystem) (leg : Leg) (walk : Walk) : Stop → Prop where
  | own (found : files.entryAt? leg.visit.location = some .directory)
      (allowed : FileSystem.refusal? leg.visit.path = none) :
      Enters files leg walk ⟨leg.stop.entrance, leg.trail, leg.visit.within⟩
  | link {place : Location} (found : files.find leg.visit.path = .ok (place, .directory))
      (fresh : place ∉ walk.visited) :
      Enters files leg walk ⟨⟨leg.visit.path, place⟩, [], leg.visit.within⟩

/-- A walk is in the directory of an entry when it enters another there. -/
theorem Leg.Enters.within (enters : leg.Enters files walk stop) :
    stop.within = leg.visit.within := by
  cases enters <;> rfl

/-- A walk enters a directory by its own name, whatever it entered before. -/
theorem next?_of_directory (found : files.entryAt? leg.visit.location = some .directory)
    (allowed : FileSystem.refusal? leg.visit.path = none) :
    leg.next? files walk = some ⟨leg.stop.entrance, leg.trail, leg.visit.within⟩ := by
  simp [Leg.next?, found, allowed]

/-- A step enters no directory, or it goes on with the entries of the one that it enters. -/
theorem step_cases (files : FileSystem) (query : Query) (leg : Leg) (walk : Walk) :
    (leg.next? files walk = none ∧ (step files query leg.visit walk).1 = [] ∧
        (step files query leg.visit walk).2.visited = walk.visited) ∨
      ∃ stop, leg.next? files walk = some stop ∧ leg.Enters files walk stop ∧
        step files query leg.visit walk =
          ((stop.legs files).map Leg.visit, walk.enter stop.location) := by
  cases found : files.entryAt? leg.visit.location with
  | none => exact .inl (by simp [Leg.next?, step, found])
  | some entry =>
      cases entry with
      | file content => exact .inl (by simp [Leg.next?, step, found])
      | directory =>
          cases refused : FileSystem.refusal? leg.visit.path with
          | some error => exact .inl (by simp [Leg.next?, step, found, refused, Walk.withWarning])
          | none =>
              have path : leg.stop.entrance.path.descend leg.trail = leg.visit.path :=
                Path.descend_concat
              have place : leg.stop.entrance.location ++ leg.trail = leg.visit.location :=
                (List.append_assoc _ _ _).symm
              refine .inr ⟨_, next?_of_directory found refused, .own found refused, ?_⟩
              rw [map_visit_legs]
              simp [step, found, refused, Stop.path, Stop.location, path, place]
      | link target =>
          cases led : files.find leg.visit.path with
          | error error => exact .inl (by simp [Leg.next?, step, found, led, Walk.withWarning])
          | ok reached =>
              obtain ⟨location, entry⟩ := reached
              cases entry with
              | file content => exact .inl (by simp [Leg.next?, step, found, led])
              | link target => exact .inl (by simp [Leg.next?, step, found, led])
              | directory =>
                  by_cases inside : location ∈ leg.visit.within
                  · exact .inl (by simp [Leg.next?, step, found, led, inside, Walk.withWarning])
                  · by_cases known : location ∈ walk.visited
                    · exact .inl (by simp [Leg.next?, step, found, led, inside, known,
                        Walk.withSkip])
                    · refine .inr ⟨⟨⟨leg.visit.path, location⟩, [], leg.visit.within⟩,
                        by simp [Leg.next?, found, led, inside, known], .link led known, ?_⟩
                      rw [map_visit_legs]
                      simp [step, found, led, inside, known, Stop.path, Stop.location]

/-- The directory that comes next is entered by its own name or through a link. -/
theorem enters_of_next? (ends : leg.next? files walk = some stop) :
    leg.Enters files walk stop := by
  rcases step_cases files ⟨⟨""⟩, []⟩ leg walk with ⟨none, _⟩ | ⟨other, found, enters, _⟩
  · rw [ends] at none
    cases none
  · obtain rfl := Option.some.inj (ends.symm.trans found)
    exact enters

/-- Where a directory comes next, a step enters it and plans its entries. -/
theorem step_of_next? (ends : leg.next? files walk = some stop) :
    step files query leg.visit walk =
      ((stop.legs files).map Leg.visit, walk.enter stop.location) := by
  rcases step_cases files query leg walk with ⟨none, _⟩ | ⟨other, found, _, whole⟩
  · rw [ends] at none
    cases none
  · obtain rfl := Option.some.inj (ends.symm.trans found)
    exact whole

/-- The entries that come with an entry are those of the directory that is entered there. -/
theorem mem_further {inner : Leg} : inner ∈ leg.further files walk ↔
    ∃ stop, leg.next? files walk = some stop ∧ inner ∈ stop.legs files := by
  rw [Leg.further]
  cases leg.next? files walk <;> simp

/-- A step plans the entries that come with the one it looks at. -/
theorem step_visits :
    (step files query leg.visit walk).1 = (leg.further files walk).map Leg.visit := by
  rcases step_cases files query leg walk with ⟨ends, none, _⟩ | ⟨stop, ends, _, whole⟩
  · rw [none, Leg.further, ends]
    rfl
  · rw [whole, Leg.further, ends]
    rfl

/-- The entries that a walk looks at, each with the directory that it enters there. -/
def course (files : FileSystem) (query : Query) (legs : List Leg) (walk : Walk) :
    List (Leg × Option Stop) :=
  match legs with
  | [] => []
  | leg :: rest =>
      (leg, leg.next? files walk) ::
        course files query (leg.further files walk ++ rest) (step files query leg.visit walk).2
termination_by measure files (legs.map Leg.visit) walk
decreasing_by
  rw [List.map_append, ← step_visits]
  exact measure_step_lt files query leg.visit (rest.map Leg.visit) walk

/-- The directories that a walk enters, in the order in which it enters them. -/
def entered (files : FileSystem) (query : Query) (legs : List Leg) (walk : Walk) : List Stop :=
  (course files query legs walk).filterMap Prod.snd

/-- A course goes on with the entries that come with the first one, and then with the others. -/
theorem course_cons : course files query (leg :: rest) walk =
    (leg, leg.next? files walk) ::
      course files query (leg.further files walk ++ rest) (step files query leg.visit walk).2 := by
  rw [course]

@[simp] theorem entered_nil : entered files query [] walk = [] := by
  simp [entered, course]

/-- What a walk enters at its first entry comes before what it enters later. -/
theorem entered_cons : entered files query (leg :: rest) walk =
    (leg.next? files walk).toList ++
      entered files query (leg.further files walk ++ rest) (step files query leg.visit walk).2 := by
  rw [entered, course_cons, entered]
  cases leg.next? files walk <;> rfl

/-- A walk takes a step at its first entry, and goes on with what that adds to the others. -/
theorem walkAll_cons : walkAll files query ((leg :: rest).map Leg.visit) walk =
    walkAll files query ((leg.further files walk ++ rest).map Leg.visit)
      (step files query leg.visit walk).2 := by
  rw [List.map_cons, walkAll, step_visits, ← List.map_append]

/-- A walk takes a step at each entry of its course. -/
theorem walkAll_eq_foldl : walkAll files query (legs.map Leg.visit) walk =
    (course files query legs walk).foldl
      (fun walk turn => (step files query turn.1.visit walk).2) walk := by
  fun_induction course files query legs walk with
  | case1 walk => rw [List.map_nil, walkAll, List.foldl_nil]
  | case2 walk leg rest hypothesis => rw [walkAll_cons, hypothesis, List.foldl_cons]

/-- A walk looks at the entries that it starts with and at those of the directories that it enters,
at each as often as it enters the directory. -/
theorem map_fst_course_perm : ((course files query legs walk).map Prod.fst).Perm
    (legs ++ (entered files query legs walk).flatMap (Stop.legs files)) := by
  induction legs, walk using course.induct files query with
  | case1 walk => simp [course]
  | case2 walk leg rest hypothesis =>
      rw [course_cons, entered_cons, List.map_cons, List.cons_append]
      refine .cons leg (hypothesis.trans ?_)
      rw [List.flatMap_append]
      cases ends : leg.next? files walk with
      | none =>
          simp only [Leg.further, ends]
          exact .refl _
      | some stop =>
          simp only [Leg.further, ends, Option.elim_some, Option.toList_some,
            List.flatMap_singleton, ← List.append_assoc]
          exact List.perm_append_comm.append_right _

section Soundness

/-- From its entrance, the names of a stop lead through directories. -/
def Stop.Sound (files : FileSystem) (stop : Stop) : Prop :=
  ∀ front, front <+: stop.names → files.find (stop.entrance.path.descend front) =
    .ok (stop.entrance.location ++ front, .directory)

/-- A stop of a sound walk is found under its path, and is a directory. -/
theorem Stop.Sound.find (sound : stop.Sound files) :
    files.find stop.path = .ok (stop.location, .directory) :=
  sound stop.names (List.prefix_refl _)

/-- What is entered from a sound stop is sound. -/
theorem Leg.Enters.sound (tree : files.IsTree) (enters : leg.Enters files walk stop)
    (sound : leg.stop.Sound files) (listed : leg.name ∈ files.names leg.stop.location) :
    stop.Sound files := by
  cases enters with
  | own found allowed =>
      intro front inside
      rcases List.prefix_concat_iff.mp inside with rfl | before
      · obtain ⟨proper, named⟩ := tree.named_of_mem listed
        rw [Path.descend_concat, ← List.append_assoc]
        exact FileSystem.find_join proper named sound.find allowed found
      · exact sound front before
  | link found fresh =>
      intro front inside
      obtain rfl := List.prefix_nil.mp inside
      rw [List.append_nil]
      exact found

/-- A walk enters directories where it says, if it starts in such directories. -/
theorem sound_of_mem_entered (tree : files.IsTree)
    (sounds : ∀ leg ∈ legs, leg.stop.Sound files ∧ leg.name ∈ files.names leg.stop.location)
    (inside : stop ∈ entered files query legs walk) : stop.Sound files := by
  induction legs, walk using course.induct files query with
  | case1 walk => simp at inside
  | case2 walk leg rest hypothesis =>
      obtain ⟨⟨sound, listed⟩, others⟩ := List.forall_mem_cons.mp sounds
      rw [entered_cons] at inside
      rcases step_cases files query leg walk with ⟨ends, _, _⟩ | ⟨next, ends, enters, _⟩
      · simp only [Leg.further, ends] at inside hypothesis
        exact hypothesis others inside
      · simp only [Leg.further, ends] at inside hypothesis
        have nextSound := enters.sound tree sound listed
        rcases List.mem_cons.mp inside with rfl | later
        · exact nextSound
        · refine hypothesis (List.forall_mem_append.mpr ⟨?_, others⟩) later
          intro other own
          obtain ⟨name, listed, rfl⟩ := List.mem_map.mp own
          exact ⟨nextSound, listed⟩

end Soundness

section Keys

/-- Two entries below one entrance are not above one another, and are not the same. -/
def Leg.Apart (left right : Leg) : Prop :=
  left.stop.entrance.location = right.stop.entrance.location →
    ¬ left.trail <+: right.trail ∧ ¬ right.trail <+: left.trail

/-- What is left of a walk: entries that are apart, below entrances that were visited. -/
structure Ahead (legs : List Leg) (walk : Walk) : Prop where
  apart : legs.Pairwise Leg.Apart
  visited : ∀ leg ∈ legs, leg.stop.entrance.location ∈ walk.visited

/-- Entering a directory adds it to those that were visited. -/
theorem mem_visited_enter {place : Location} :
    location ∈ (walk.enter place).visited ↔ location = place ∨ location ∈ walk.visited := by
  unfold Walk.enter
  by_cases known : place ∈ walk.visited
  · simp only [List.contains_iff_mem.mpr known, if_true]
    exact ⟨.inr, fun present => present.elim (fun same => same ▸ known) id⟩
  · simp [known]

/-- What was visited stays so. -/
theorem visited_subset_step : walk.visited ⊆ (step files query leg.visit walk).2.visited := by
  intro place known
  rcases step_cases files query leg walk with ⟨_, _, same⟩ | ⟨stop, _, _, whole⟩
  · exact same ▸ known
  · rw [whole]
    exact mem_visited_enter.mpr (.inr known)

/-- Each name in a directory has an entry. -/
theorem mem_legs {name : String} (listed : name ∈ files.names stop.location) :
    Leg.mk stop name ∈ stop.legs files :=
  List.mem_map.mpr ⟨name, listed, rfl⟩

/-- The entries of a directory belong to the stop there. -/
theorem stop_of_mem_legs (inside : leg ∈ stop.legs files) : leg.stop = stop := by
  obtain ⟨name, _, rfl⟩ := List.mem_map.mp inside
  rfl

/-- An entry lies below its directory, so its names are longer. -/
theorem not_trail_prefix_names (inside : leg ∈ stop.legs files) : ¬ leg.trail <+: stop.names := by
  rw [Leg.trail, stop_of_mem_legs inside]
  intro before
  have longer := before.length_le
  rw [List.length_append, List.length_singleton] at longer
  omega

/-- The entries of one directory are apart. -/
theorem apart_legs (files : FileSystem) (stop : Stop) :
    (stop.legs files).Pairwise Leg.Apart := by
  refine List.pairwise_map.mpr ((nodup_names files stop.location).imp ?_)
  intro left right different _
  have equal : ∀ {left right : String},
      stop.names ++ [left] <+: stop.names ++ [right] → left = right := by
    intro left right before
    simpa using (List.prefix_append_right_inj _).mp before
  exact ⟨fun before => different (equal before), fun before => different (equal before).symm⟩

/-- What a walk enters is the entry itself, below its entrance, or an entrance of its own. -/
theorem Leg.Enters.origin (enters : leg.Enters files walk stop) :
    stop.entrance = leg.stop.entrance ∧ stop.names = leg.trail ∨
      stop.entrance.location ∉ walk.visited ∧ stop.names = [] := by
  cases enters with
  | own => exact .inl ⟨rfl, rfl⟩
  | link _ fresh => exact .inr ⟨fresh, rfl⟩

/-- The entrance of what a walk enters has been visited. -/
theorem Leg.Enters.entrance_mem (enters : leg.Enters files walk stop)
    (known : leg.stop.entrance.location ∈ walk.visited) :
    stop.entrance.location ∈ (walk.enter stop.location).visited := by
  cases enters with
  | own => exact mem_visited_enter.mpr (.inr known)
  | link => exact mem_visited_enter.mpr (.inl (by simp [Stop.location]))

/-- What a walk enters at an entry is apart from the other entries that are left. -/
theorem Leg.Enters.apart (enters : leg.Enters files walk stop) {other inner : Leg}
    (different : leg.Apart other) (known : other.stop.entrance.location ∈ walk.visited)
    (inside : inner ∈ stop.legs files) : inner.Apart other := by
  obtain ⟨name, _, rfl⟩ := List.mem_map.mp inside
  intro same
  cases enters with
  | own =>
      obtain ⟨notBefore, notAfter⟩ := different same
      constructor
      · intro before
        exact notBefore ((List.prefix_append _ _).trans before)
      · intro after
        rcases List.prefix_concat_iff.mp after with equal | above
        · exact notBefore (equal ▸ List.prefix_append _ _)
        · exact notAfter above
  | link _ fresh =>
      rw [← same] at known
      exact absurd known fresh

/-- A step leaves entries that are apart. -/
theorem Ahead.step (ahead : Ahead (leg :: rest) walk) :
    Ahead (leg.further files walk ++ rest) (step files query leg.visit walk).2 := by
  obtain ⟨different, apart⟩ := List.pairwise_cons.mp ahead.apart
  obtain ⟨known, others⟩ := List.forall_mem_cons.mp ahead.visited
  rcases step_cases files query leg walk with ⟨ends, _, same⟩ | ⟨stop, ends, enters, whole⟩
  · simp only [Leg.further, ends]
    exact ⟨apart, same ▸ others⟩
  · simp only [Leg.further, ends, whole]
    constructor
    · refine List.pairwise_append.mpr ⟨apart_legs files stop, apart, ?_⟩
      intro inner inside other left
      exact enters.apart (different other left) (others other left) inside
    · refine List.forall_mem_append.mpr ⟨?_, ?_⟩
      · intro inner inside
        rw [stop_of_mem_legs inside]
        exact enters.entrance_mem known
      · intro other left
        exact mem_visited_enter.mpr (.inr (others other left))

/-- What a walk enters is below an entry that it starts with, or below an entrance that it comes
to later. -/
theorem exists_origin (inside : stop ∈ entered files query legs walk) :
    (∃ leg ∈ legs, leg.stop.entrance = stop.entrance ∧ leg.trail <+: stop.names) ∨
      stop.entrance.location ∉ walk.visited ∧
        ∃ start ∈ entered files query legs walk, start.entrance = stop.entrance ∧
          start.names = [] := by
  induction legs, walk using course.induct files query with
  | case1 walk => simp at inside
  | case2 walk leg rest hypothesis =>
      rw [entered_cons] at inside ⊢
      rcases List.mem_append.mp inside with here | later
      · have ends := Option.mem_toList.mp here
        rcases (enters_of_next? ends).origin with ⟨same, names⟩ | ⟨fresh, top⟩
        · exact .inl ⟨leg, List.mem_cons_self, same.symm, names ▸ List.prefix_refl _⟩
        · exact .inr ⟨fresh, stop, inside, rfl, top⟩
      · rcases hypothesis later with ⟨inner, left, same, above⟩ | ⟨fresh, start, starts, same, own⟩
        · -- An entry inside of what is entered here has the origin of this directory.
          rcases List.mem_append.mp left with within | other
          · obtain ⟨next, ends, within⟩ := mem_further.mp within
            rw [Leg.trail, stop_of_mem_legs within] at above
            rw [stop_of_mem_legs within] at same
            rcases (enters_of_next? ends).origin with ⟨stems, names⟩ | ⟨fresh, top⟩
            · have longer := (List.prefix_append next.names [inner.name]).trans above
              exact .inl ⟨leg, List.mem_cons_self, stems.symm.trans same, names ▸ longer⟩
            · refine .inr ⟨same ▸ fresh, next, List.mem_append_left _ ?_, same, top⟩
              exact Option.mem_toList.mpr ends
          · exact .inl ⟨inner, List.mem_cons_of_mem _ other, same, above⟩
        · exact .inr ⟨fun known => fresh (visited_subset_step known), start,
            List.mem_append_right _ starts, same, own⟩

/-- A walk enters no directory twice from one entrance, and comes to no entrance twice. -/
theorem pairwise_entered (ahead : Ahead legs walk) :
    (entered files query legs walk).Pairwise fun left right =>
      ¬ (left.entrance.location = right.entrance.location ∧ left.names = right.names) := by
  induction legs, walk using course.induct files query with
  | case1 walk => simp
  | case2 walk leg rest hypothesis =>
      have others := hypothesis ahead.step
      rw [entered_cons]
      cases ends : leg.next? files walk with
      | none => exact others
      | some stop =>
          refine List.pairwise_cons.mpr ⟨?_, others⟩
          rintro later inside ⟨same, names⟩
          rcases exists_origin inside with ⟨inner, left, stems, above⟩ | ⟨fresh, _⟩
          · rw [← names] at above
            -- An entry of the directory itself is too deep, and the others are apart from it.
            rcases List.mem_append.mp left with within | other
            · obtain ⟨next, found, within⟩ := mem_further.mp within
              obtain rfl := Option.some.inj (ends.symm.trans found)
              exact not_trail_prefix_names within above
            · rcases (enters_of_next? ends).origin with ⟨own, trail⟩ | ⟨_, top⟩
              · have level : leg.stop.entrance.location = inner.stop.entrance.location := by
                  rw [stems, ← same, own]
                rw [trail] at above
                exact (List.rel_of_pairwise_cons ahead.apart other level).2 above
              · rw [top] at above
                simp [Leg.trail] at above
          · -- The entrance was visited when this directory was entered, so no link leads to it.
            have known := ahead.visited leg List.mem_cons_self
            refine fresh ?_
            rw [step_of_next? ends, ← same]
            exact (enters_of_next? ends).entrance_mem known

end Keys

section Moments

/-- The walk at an entry of its course: what it enters there is decided, where it has been and where
it is in has some property, and what it warns of is among the warnings of the whole walk. -/
structure Moment (files : FileSystem) (query : Query) (holds : Location → Prop) (whole : Walk)
    (turn : Leg × Option Stop) (walk : Walk) : Prop where
  decided : turn.2 = turn.1.next? files walk
  visited : ∀ place ∈ walk.visited, holds place
  within : ∀ place ∈ turn.1.visit.within, holds place
  warned : (step files query turn.1.visit walk).2.warnings ⊆ whole.warnings

/-- A step withdraws no warning. -/
theorem warnings_subset_step : walk.warnings ⊆ (step files query leg.visit walk).2.warnings := by
  unfold step
  repeat' split
  all_goals simp [Walk.withWarning, Walk.withSkip]

/-- A walk withdraws no warning. -/
theorem warnings_subset_walkAll :
    walk.warnings ⊆ (walkAll files query (legs.map Leg.visit) walk).warnings := by
  rw [walkAll_eq_foldl]
  generalize course files query legs walk = turns
  induction turns generalizing walk with
  | nil => exact List.Subset.refl _
  | cons turn turns hypothesis => exact List.Subset.trans warnings_subset_step hypothesis

/-- A walk in places with some property that only enters such places is in them at every entry. -/
theorem exists_moment {holds : Location → Prop} {turn : Leg × Option Stop}
    (visited : ∀ place ∈ walk.visited, holds place)
    (within : ∀ leg ∈ legs, ∀ place ∈ leg.visit.within, holds place)
    (enters : ∀ stop ∈ entered files query legs walk, holds stop.location)
    (inside : turn ∈ course files query legs walk) :
    ∃ moment, Moment files query holds (walkAll files query (legs.map Leg.visit) walk) turn
      moment := by
  induction legs, walk using course.induct files query with
  | case1 walk => simp [course] at inside
  | case2 walk leg rest hypothesis =>
      obtain ⟨here, others⟩ := List.forall_mem_cons.mp within
      rw [entered_cons] at enters
      obtain ⟨next, later⟩ := List.forall_mem_append.mp enters
      rw [course_cons] at inside
      rw [walkAll_cons]
      rcases List.mem_cons.mp inside with rfl | inside
      · exact ⟨walk, rfl, visited, here, warnings_subset_walkAll⟩
      · rcases step_cases files query leg walk with ⟨ends, _, same⟩ | ⟨stop, ends, way, whole⟩
        · refine hypothesis (same ▸ visited) ?_ later inside
          simp only [Leg.further, ends]
          exact others
        · have known : holds stop.location := next stop (by simp [ends])
          refine hypothesis ?_ ?_ later inside
          · rw [whole]
            intro place member
            rcases mem_visited_enter.mp member with rfl | before
            · exact known
            · exact visited place before
          · simp only [Leg.further, ends]
            refine List.forall_mem_append.mpr ⟨?_, others⟩
            intro inner own place member
            rw [Leg.visit, stop_of_mem_legs own] at member
            rcases List.mem_cons.mp member with rfl | outer
            · exact known
            · exact here place (way.within ▸ outer)

/-- What a walk enters at an entry of its course is decided there. -/
theorem exists_walk_of_mem_course {turn : Leg × Option Stop}
    (inside : turn ∈ course files query legs walk) : ∃ walk, turn.2 = turn.1.next? files walk := by
  obtain ⟨moment, there⟩ := exists_moment (fun _ _ => trivial) (fun _ _ _ _ => trivial)
    (fun _ _ => trivial) inside
  exact ⟨moment, there.decided⟩

end Moments

end SchemaBeans.Discovery
