import SchemaBeans.Project
import SchemaBeans.Proofs.Ancestors
import SchemaBeans.Proofs.Groups
import SchemaBeans.Proofs.TableLines

/-!
# Roots of projects

The root of a project is the nearest directory with a configuration file or with the
manifest of a workspace. A manifest is that of a workspace if it has a `workspace`
table; what is looked for in it is the text of a header of that table, which may
stand in a comment or be written in another way.
-/

namespace SchemaBeans

namespace Toml

/-- Whether a value is a table. -/
def Value.isTable : Value → Bool
  | table _ _ => true
  | _ => false

/-- A text is a document with a table of a given name at its top. -/
def HasTable (name text : String) : Prop :=
  ∃ entries value, parse? text = some entries ∧ entries.lookup name = some value ∧
    value.isTable = true

variable {name text : String} {entries : Entries} {table : TextTable} {tables : List TextTable}

/-- A manifest has a table when its parsed entries do. -/
theorem hasTable_iff (parsed : parse? text = some entries) :
    HasTable name text ↔ (entries.lookup name).any Value.isTable = true := by
  rw [HasTable, parsed, Option.any_eq_true]
  constructor
  · rintro ⟨_, value, same, found, table⟩
    obtain rfl := Option.some.inj same
    exact ⟨value, found, table⟩
  · rintro ⟨value, found, table⟩
    exact ⟨entries, value, rfl, found, table⟩

instance (name text : String) : Decidable (HasTable name text) :=
  match parsed : parse? text with
  | some entries => decidable_of_iff _ (hasTable_iff parsed).symm
  | none => isFalse fun ⟨_, _, given, _⟩ => by simp [parsed] at given

/-- The header of each table is a line of the document. -/
theorem TextTable.header_mem (listed : table ∈ tables) :
    Line.header table.name table.bare ∈ allLines tables := by
  cases tables with
  | nil => cases listed
  | cons first others =>
      rw [allLines, List.mem_append, List.mem_flatMap]
      rcases List.mem_cons.mp listed with rfl | later
      · exact .inl List.mem_cons_self
      · exact .inr ⟨table, later, List.mem_cons_of_mem _ List.mem_cons_self⟩

end Toml

namespace Project

open SchemaBeans.Path

variable {files : FileSystem} {directory start : Path} {text : String}

/-- What is tested of a manifest: its text holds the header of a workspace. -/
def MentionsWorkspace (text : String) : Prop := workspaceMark.toList <:+: text.toList

/-- What the test is meant for: the manifest is a document with the table of a workspace. -/
def DeclaresWorkspace (text : String) : Prop := Toml.HasTable "workspace" text

instance (text : String) : Decidable (MentionsWorkspace text) :=
  inferInstanceAs (Decidable (_ <:+: _))

instance (text : String) : Decidable (DeclaresWorkspace text) :=
  inferInstanceAs (Decidable (Toml.HasTable _ _))

/-- A directory is the root of a project if it has a configuration file, or a manifest that passes a
test. -/
def IsRootBy (test : String → Prop) (files : FileSystem) (directory : Path) : Prop :=
  files.isFile (directory.join ⟨projectFile⟩) = true ∨
    ∃ text, files.read (directory.join ⟨manifestFile⟩) = .ok text ∧ test text

instance (test : String → Prop) [DecidablePred test] (files : FileSystem) (directory : Path) :
    Decidable (IsRootBy test files directory) :=
  match given : files.read (directory.join ⟨manifestFile⟩) with
  | .ok text => decidable_of_iff (files.isFile (directory.join ⟨projectFile⟩) = true ∨ test text)
      (by simp [IsRootBy, given])
  | .error _ => decidable_of_iff (files.isFile (directory.join ⟨projectFile⟩) = true)
      (by simp [IsRootBy, given])

/-- A text contains another one that stands in it without gaps. -/
theorem contains_iff {part text : List Char} : contains part text = true ↔ part <:+: text := by
  induction text with
  | nil => rw [contains, List.isEmpty_iff, List.infix_nil]
  | cons first rest hypothesis =>
      rw [contains, Bool.or_eq_true, List.isPrefixOf_iff_prefix, hypothesis, List.infix_cons_iff]

/-- The test for a root of a project is whether its manifest mentions a workspace. -/
theorem isRoot_iff :
    isRoot files directory = true ↔ IsRootBy MentionsWorkspace files directory := by
  rw [isRoot, Bool.or_eq_true, IsRootBy, isWorkspace]
  cases files.read (directory.join ⟨manifestFile⟩) with
  | error error => simp
  | ok text => simp [contains_iff, MentionsWorkspace]

section Manifests

variable {comments : List String} {tables : List Toml.TextTable}

/-- A manifest is written with a line for each entry of its tables, below lines of comments. -/
structure IsManifest (comments : List String) (tables : List Toml.TextTable) (text : String) :
    Prop where
  printable : ∀ comment ∈ comments, ∀ character ∈ comment.toList,
    Toml.isPrintable character = true
  distinct : (tables.map Toml.TextTable.name).Nodup
  written : text.toList = Toml.commentLines comments ++
    (Toml.TextTable.allLines tables).flatMap fun line => line.text.toList

/-- Such a manifest is that of a workspace if one of its tables is called so. -/
theorem IsManifest.declaresWorkspace_iff (manifest : IsManifest comments tables text) :
    DeclaresWorkspace text ↔ ∃ table ∈ tables, table.name = "workspace" := by
  have parsed :=
    Toml.parse?_commentLines tables manifest.distinct manifest.printable manifest.written
  have keys : (tables.map Toml.TextTable.pair).map Prod.fst = tables.map Toml.TextTable.name := by
    rw [List.map_map]
    rfl
  have distinct : ((tables.map Toml.TextTable.pair).map Prod.fst).Nodup := keys ▸ manifest.distinct
  rw [DeclaresWorkspace, Toml.hasTable_iff parsed, Option.any_eq_true]
  constructor
  · rintro ⟨value, found, _⟩
    have inside := (Keyed.mem_iff_lookup distinct).mpr found
    obtain ⟨table, listed, same⟩ := List.mem_map.mp inside
    exact ⟨table, listed, congrArg Prod.fst same⟩
  · rintro ⟨table, listed, named⟩
    have inside : ("workspace", table.pair.2) ∈ tables.map Toml.TextTable.pair :=
      List.mem_map.mpr ⟨table, listed, by rw [← named]; rfl⟩
    exact ⟨table.pair.2, (Keyed.mem_iff_lookup distinct).mp inside, rfl⟩

/-- What is written for one line stands in what is written for all. -/
theorem infix_flatMap {α : Type} (write : α → List Char) {line : α} {lines : List α}
    (inside : line ∈ lines) : write line <:+: lines.flatMap write := by
  rw [List.flatMap_def]
  exact List.infix_of_mem_flatten (List.mem_map_of_mem inside)

/-- The header of a workspace is found in a manifest with that table, and in one with a comment that
tells of it. -/
theorem IsManifest.mentionsWorkspace (manifest : IsManifest comments tables text)
    (told : (∃ table ∈ tables, table.name = "workspace") ∨
      ∃ comment ∈ comments, workspaceMark.toList <:+: comment.toList) :
    MentionsWorkspace text := by
  rw [MentionsWorkspace, manifest.written]
  rcases told with ⟨table, listed, named⟩ | ⟨comment, listed, mentioned⟩
  · have opened :
        workspaceMark.toList <:+: (Toml.Line.header table.name table.bare).text.toList := by
      refine ⟨[], ['\n'], ?_⟩
      simp [Toml.Line.text, named, workspaceMark]
    have line := infix_flatMap (fun line => line.text.toList) (Toml.TextTable.header_mem listed)
    exact (opened.trans line).trans (List.suffix_append _ _).isInfix
  · have noted : workspaceMark.toList <:+: '#' :: (comment.toList ++ ['\n']) :=
      (mentioned.trans (List.prefix_append _ _).isInfix).trans (List.suffix_cons _ _).isInfix
    have line := infix_flatMap (fun comment : String => '#' :: (comment.toList ++ ['\n'])) listed
    exact (noted.trans line).trans (List.prefix_append _ _).isInfix

/-- The header may be written so that it is not found. -/
example : DeclaresWorkspace "[ workspace ]\n" ∧ ¬ MentionsWorkspace "[ workspace ]\n" := by
  decide +kernel

/-- A directory is taken for the root if a comment of its manifest tells of a workspace. -/
theorem IsManifest.rootFrom?_eq (manifest : IsManifest comments tables text)
    (read : files.read (start.join ⟨manifestFile⟩) = .ok text)
    (plain : files.isFile (start.join ⟨projectFile⟩) = false)
    (member : ∀ table ∈ tables, table.name ≠ "workspace")
    (told : ∃ comment ∈ comments, workspaceMark.toList <:+: comment.toList) :
    rootFrom? files start = some start ∧ ¬ IsRootBy DeclaresWorkspace files start := by
  have taken : isRoot files start = true :=
    isRoot_iff.mpr (.inr ⟨text, read, manifest.mentionsWorkspace (.inr told)⟩)
  refine ⟨by rw [rootFrom?, ancestors, List.find?_cons_of_pos taken], ?_⟩
  rintro (config | ⟨other, same, declared⟩)
  · rw [plain] at config
    cases config
  · rw [read] at same
    cases same
    obtain ⟨table, listed, named⟩ := manifest.declaresWorkspace_iff.mp declared
    exact member table listed named

end Manifests

/-- The search goes up from a path and takes the first directory with a configuration file or with a
manifest that mentions a workspace. That is the root which is meant exactly if the nearest directory
that passes either test of manifests passes both. -/
theorem rootFrom?_nearest (files : FileSystem) (start : Path) :
    Nearest (IsRootBy MentionsWorkspace files) start (rootFrom? files start) ∧
      (Nearest (IsRootBy DeclaresWorkspace files) start (rootFrom? files start) ↔
        ∀ directory,
          Nearest (fun path => IsRootBy MentionsWorkspace files path ∨
            IsRootBy DeclaresWorkspace files path) start (some directory) →
          IsRootBy MentionsWorkspace files directory ∧
            IsRootBy DeclaresWorkspace files directory) := by
  have made : Nearest (IsRootBy MentionsWorkspace files) start (rootFrom? files start) :=
    nearest_find? (fun _ => isRoot_iff) start
  exact ⟨made, made.same_iff⟩

/-- A workspace with a member whose manifest tells of the workspace in a comment. -/
def notedMember : FileSystem :=
  ⟨[(["Cargo.toml"], .file (.text "[workspace]\nmembers = [\"p\"]\n")), (["p"], .directory),
    (["p", "Cargo.toml"],
      .file (.text "# A member of the [workspace] above.\n[package]\nname = \"p\"\n"))], []⟩

/-- The search for the root of `notedMember` stops at the member, and not at the workspace. -/
theorem notedMember_taken :
    rootFrom? notedMember ⟨"p"⟩ = some ⟨"p"⟩ ∧
      Nearest (IsRootBy DeclaresWorkspace notedMember) ⟨"p"⟩ (some ⟨""⟩) ∧
      ¬ ∀ files start,
        Nearest (IsRootBy DeclaresWorkspace files) start (rootFrom? files start) := by
  have taken : rootFrom? notedMember ⟨"p"⟩ = some ⟨"p"⟩ := by decide +kernel
  have member : ¬ IsRootBy DeclaresWorkspace notedMember ⟨"p"⟩ := by decide +kernel
  have root : IsRootBy DeclaresWorkspace notedMember ⟨""⟩ := by decide +kernel
  have parents : parents ⟨"p"⟩ = [⟨""⟩] := by decide +kernel
  have above : ∀ path, LiesAbove path ⟨"p"⟩ ↔ path = ⟨""⟩ := by
    intro path
    rw [← mem_parents_iff, parents, List.mem_singleton]
  have meant : Nearest (IsRootBy DeclaresWorkspace notedMember) ⟨"p"⟩ (some ⟨""⟩) := by
    refine ⟨.inr ((above _).mpr rfl), root, ?_⟩
    rintro path (rfl | higher) has
    · exact absurd has member
    · exact .inl ((above path).mp higher)
  refine ⟨taken, meant, fun always => ?_⟩
  have given := always notedMember ⟨"p"⟩
  rw [taken] at given
  exact absurd (meant.unique given) (by decide)

end Project

end SchemaBeans
