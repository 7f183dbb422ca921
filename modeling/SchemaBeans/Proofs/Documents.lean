import SchemaBeans.Proofs.Course

/-!
# The documents of a walk

A walk finds a document at each entry of its course that has one of the extensions and
is a regular file once links are followed, and it finds no other documents. The paths
under which it meets its entries are all different, wherever links lead: the paths of
the entries that are left are never at or below one another.
-/

namespace SchemaBeans

/-- What stands at a location, met under a path, is a regular file once links are followed. -/
inductive FileSystem.IsRegular (files : FileSystem) (path : Path) (location : Location) : Prop where
  | plain {content} (found : files.entryAt? location = some (.file content))
  | linked {target place content} (link : files.entryAt? location = some (.link target))
      (found : files.find path = .ok (place, .file content))

namespace Discovery

/-- Whether a walk finds a document at an entry. -/
def Leg.isDocument (files : FileSystem) (query : Query) (leg : Leg) : Bool :=
  hasExtension leg.visit.path query.extensions &&
    match files.entryAt? leg.visit.location with
    | some (.file _) => true
    | some (.link _) => files.isFile leg.visit.path
    | _ => false

/-- The document that a walk finds at an entry. -/
def Leg.document (query : Query) (leg : Leg) : SchemaFile := .below query.root leg.visit.path

variable {files : FileSystem} {query : Query} {leg : Leg} {legs rest : List Leg} {stop : Stop}
  {walk : Walk}

/-- An entry is a document when its extension is one of the query and it is a regular file, perhaps
through a link. -/
theorem isDocument_iff : leg.isDocument files query = true ↔
    hasExtension leg.visit.path query.extensions = true ∧
      files.IsRegular leg.visit.path leg.visit.location := by
  rw [Leg.isDocument, Bool.and_eq_true]
  refine and_congr_right fun _ => ?_
  constructor
  · intro counts
    split at counts
    · next found => exact .plain found
    · next linked =>
        unfold FileSystem.isFile at counts
        split at counts
        · next found => exact .linked linked found
        · cases counts
    · cases counts
  · rintro (found | ⟨linked, found⟩)
    · simp [found]
    · simp [linked, FileSystem.isFile, found]

/-- A step finds the document at its entry, or none. -/
theorem files_step_eq : (step files query leg.visit walk).2.files =
    (if leg.isDocument files query then [leg.document query] else []) ++ walk.files := by
  have file : (walk.withFile query leg.visit.path).files =
      (if hasExtension leg.visit.path query.extensions then [leg.document query] else []) ++
        walk.files := walk.files_withFile query leg.visit.path
  unfold step Leg.isDocument FileSystem.isFile
  cases files.entryAt? leg.visit.location with
  | none => simp
  | some entry =>
      cases entry with
      | file content => simpa using file
      | directory =>
          cases FileSystem.refusal? leg.visit.path with
          | none => simp
          | some error => simp [Walk.withWarning]
      | link target =>
          cases led : files.find leg.visit.path with
          | error error => simp [Walk.withWarning]
          | ok reached =>
              obtain ⟨place, entry⟩ := reached
              cases entry with
              | file content => simpa using file
              | link target => simp
              | directory =>
                  dsimp only
                  split
                  · simp [Walk.withWarning]
                  · split
                    · simp [Walk.withSkip]
                    · simp

/-- A walk finds the documents of its course, in order. -/
theorem files_walkAll (files : FileSystem) (query : Query) (legs : List Leg) (walk : Walk) :
    (walkAll files query (legs.map Leg.visit) walk).files =
      ((((course files query legs walk).map Prod.fst).filter (Leg.isDocument files query)).map
        (Leg.document query)).reverse ++ walk.files := by
  rw [walkAll_eq_foldl]
  generalize course files query legs walk = turns
  induction turns generalizing walk with
  | nil => rfl
  | cons turn turns hypothesis =>
      rw [List.foldl_cons, hypothesis, files_step_eq, List.map_cons, List.filter_cons]
      split <;> simp

section Paths

variable {inner other : Leg}

/-- What a walk enters at an entry, it meets under the path of the entry. -/
theorem path_of_next? (ends : leg.next? files walk = some stop) : stop.path = leg.visit.path := by
  cases enters_of_next? ends with
  | own => exact Path.descend_concat
  | link => rfl

/-- The path of an entry is that of its directory and its own name. -/
theorem components_of_mem_legs (tree : files.IsTree) (own : leg ∈ stop.legs files) :
    leg.visit.path.components = stop.path.components ++ [.name leg.name] := by
  obtain ⟨name, listed, rfl⟩ := List.mem_map.mp own
  exact Path.components_join (tree.named_of_mem listed).1

/-- The path of an entry that comes with another goes on from the path of that one. -/
theorem components_of_mem_further (tree : files.IsTree) (within : inner ∈ leg.further files walk) :
    inner.visit.path.components = leg.visit.path.components ++ [.name inner.name] := by
  obtain ⟨stop, ends, own⟩ := mem_further.mp within
  rw [components_of_mem_legs tree own, path_of_next? ends]

/-- What is in a directory is under paths that are apart. -/
theorem apart_paths_legs (tree : files.IsTree) (stop : Stop) :
    (stop.legs files).Pairwise fun left right => left.visit.path.Apart right.visit.path := by
  have different : (stop.legs files).Pairwise fun left right => left.name ≠ right.name :=
    List.pairwise_map.mpr (nodup_names files stop.location)
  refine different.imp_of_mem fun {left right} leftOwn rightOwn differs => ?_
  rw [Path.Apart, components_of_mem_legs tree leftOwn, components_of_mem_legs tree rightOwn,
    List.prefix_append_right_inj, List.prefix_append_right_inj]
  simp [differs, differs.symm]

/-- A walk looks at entries that it comes to by names from those that it starts with. -/
theorem exists_descend (tree : files.IsTree) {turn : Leg × Option Stop}
    (inside : turn ∈ course files query legs walk) :
    ∃ leg ∈ legs, ∃ names : List String, (∀ name ∈ names, Path.IsName name) ∧
      turn.1.visit.path = leg.visit.path.descend names := by
  induction legs, walk using course.induct files query with
  | case1 walk => simp [course] at inside
  | case2 walk leg rest hypothesis =>
      rw [course_cons] at inside
      rcases List.mem_cons.mp inside with rfl | later
      · exact ⟨leg, List.mem_cons_self, [], by simp, rfl⟩
      · obtain ⟨upper, left, names, proper, down⟩ := hypothesis later
        rcases List.mem_append.mp left with within | other
        · obtain ⟨stop, ends, own⟩ := mem_further.mp within
          obtain ⟨name, listed, rfl⟩ := List.mem_map.mp own
          refine ⟨leg, List.mem_cons_self, name :: names, ?_, ?_⟩
          · exact List.forall_mem_cons.mpr ⟨(tree.named_of_mem listed).1, proper⟩
          · rw [down, Path.descend_cons, ← path_of_next? ends]
            rfl
        · exact ⟨upper, List.mem_cons_of_mem _ other, names, proper, down⟩

/-- A walk that starts with entries whose paths are apart meets no two entries under one path. -/
theorem pairwise_course (tree : files.IsTree)
    (apart : legs.Pairwise fun left right => left.visit.path.Apart right.visit.path) :
    ((course files query legs walk).map Prod.fst).Pairwise fun left right =>
      left.visit.path.components ≠ right.visit.path.components := by
  induction legs, walk using course.induct files query with
  | case1 walk => simp [course]
  | case2 walk leg rest hypothesis =>
      obtain ⟨different, others⟩ := List.pairwise_cons.mp apart
      have left : (leg.further files walk ++ rest).Pairwise fun left right =>
          left.visit.path.Apart right.visit.path := by
        refine List.pairwise_append.mpr ⟨?_, others, ?_⟩
        · rw [Leg.further]
          cases leg.next? files walk with
          | none => exact .nil
          | some stop => exact apart_paths_legs tree stop
        · intro inner within other present
          exact (different other present).of_components_concat
            (components_of_mem_further tree within)
      rw [course_cons, List.map_cons]
      refine List.pairwise_cons.mpr ⟨?_, hypothesis left⟩
      intro later present same
      obtain ⟨turn, inside, rfl⟩ := List.mem_map.mp present
      obtain ⟨upper, among, names, proper, down⟩ := exists_descend tree inside
      have above : upper.visit.path.components <+: leg.visit.path.components := by
        rw [same, down, Path.components_descend proper]
        exact List.prefix_append _ _
      -- An entry inside of this one has a longer path, and the others are apart from it.
      rcases List.mem_append.mp among with within | other
      · rw [components_of_mem_further tree within] at above
        have longer := above.length_le
        rw [List.length_append, List.length_singleton] at longer
        omega
      · exact (different upper other).2 above

end Paths

end Discovery

end SchemaBeans
