import SchemaBeans.Proofs.Detours
import SchemaBeans.Proofs.Entering
import SchemaBeans.Proofs.Order

/-!
# What a discovery finds

The documents of a discovery are in the order of their paths, and each of them is a
regular file below the root with one of the extensions. A document that is reached
without links is found under its own path. One that is reached through links is found
under some path of its directory, for the directory is entered at one of the links
that lead to it, or through another one. What is missing, the discovery warns of: on
the path by which it comes to an entry, there may be more links than are followed.
-/

namespace SchemaBeans.Discovery

/-- A name has one of some extensions, up to the case of ASCII letters. -/
def NameHasExtension (name : String) (extensions : List String) : Prop :=
  ∃ extension, Path.extensionOf? name = some extension ∧
    ∃ allowed ∈ extensions, sameIgnoringCase allowed extension = true

/-- From the root of a query, names lead to a directory with a document of that name in it. -/
structure Candidate (files : FileSystem) (query : Query) (names : List String)
    (directory : Location) (name : String) : Prop where
  proper : ∀ part ∈ names, Path.IsName part
  named : Path.IsName name
  found : files.find (query.root.descend names) = .ok (directory, .directory)
  regular : files.IsRegular ((query.root.descend names).join ⟨name⟩) (directory ++ [name])
  extension : NameHasExtension name query.extensions

/-- A discovery warns of a name in a directory, because a limit keeps its path from being
followed. -/
def Warned (files : FileSystem) (discovery : Discovery) (directory : Location) (name : String) :
    Prop :=
  ∃ warning ∈ discovery.warnings, files.LiesIn warning.path directory name ∧
    ∃ error : AccessError, error.IsLimit ∧ files.find warning.path = .error error ∧
      warning.reason = error.message

/-- A discovery warns of what one of the names on a way leads to. -/
def WarnedOnTheWay (files : FileSystem) (query : Query) (discovery : Discovery)
    (names : List String) : Prop :=
  ∃ front name directory, front ++ [name] <+: names ∧
    files.find (query.root.descend front) = .ok (directory, .directory) ∧
    Warned files discovery directory name

variable {files : FileSystem} {query : Query} {discovery : Discovery} {log : List Event}
  {location place : Location} {stop : Stop} {leg : Leg} {base : Path} {name : String}
  {names : List String}

/-- The extension of a file is that of its name, wherever it is. -/
theorem hasExtension_join (proper : Path.IsName name) (base : Path) (extensions : List String) :
    hasExtension (base.join ⟨name⟩) extensions = true ↔ NameHasExtension name extensions := by
  have named : (base.join ⟨name⟩).extension? = Path.extensionOf? name := by
    simp [Path.extension?, Path.fileName?, Path.components_join proper, Component.name?]
  unfold hasExtension NameHasExtension
  rw [named]
  cases Path.extensionOf? name <;> simp

/-- The entries that a discovery looks at are under different paths. -/
theorem pairwise_components_legs (tree : files.IsTree) (query : Query) :
    ((stops files query).flatMap (Stop.legs files)).Pairwise fun left right =>
      left.visit.path.components ≠ right.visit.path.components := by
  unfold stops
  split
  · rw [List.flatMap_cons]
    exact (map_fst_course_perm.pairwise_iff Ne.symm).mp
      (pairwise_course tree (apart_paths_legs tree _))
  · exact .nil

/-- The documents of a discovery are strictly increasing in the order of their paths. -/
theorem pairwise_files (tree : files.IsTree)
    (outcome : ofQuery files query = (.ok discovery, log)) :
    discovery.files.Pairwise fun left right => left.path.compare right.path = .lt := by
  have sorted : discovery.files.Pairwise fun left right => left.compare right ≠ .gt := by
    rcases ofQuery_cases outcome with ⟨_, rfl⟩ | ⟨location, _, rfl⟩
    · exact .nil
    · exact pairwise_mergeSort_ne_gt _
  have different : discovery.files.Pairwise fun left right =>
      left.path.components ≠ right.path.components := by
    refine ((files_perm_of_ofQuery outcome).pairwise_iff Ne.symm).mpr (List.pairwise_map.mpr ?_)
    exact (pairwise_components_legs tree query).sublist List.filter_sublist
  refine @pairwise_lt_of_ne_gt _ (fun left right : SchemaFile => left.path.compare right.path) _
    ?_ ?_
  · exact sorted.imp SchemaFile.path_compare_ne_gt
  · exact different.imp fun differs same => differs (Path.compare_eq_eq_iff.mp same)

/-- What a discovery finds below a root that leads to a location. -/
structure Faithful (files : FileSystem) (query : Query) (location : Location)
    (discovery : Discovery) : Prop where
  ordered : discovery.files.Pairwise fun left right => left.path.compare right.path = .lt
  sound : ∀ file ∈ discovery.files, ∃ names directory name,
    Candidate files query names directory name ∧
      file = .below query.root ((query.root.descend names).join ⟨name⟩)
  /-- No link is on the way to a directory that is below the location by the names of its path. -/
  own : ∀ names name, Candidate files query names (location ++ names) name →
    .below query.root ((query.root.descend names).join ⟨name⟩) ∈ discovery.files
  linked : ∀ names directory name, Candidate files query names directory name →
    (∃ file ∈ discovery.files, files.LiesIn file.path directory name) ∨
      WarnedOnTheWay files query discovery (names ++ [name])

end SchemaBeans.Discovery
