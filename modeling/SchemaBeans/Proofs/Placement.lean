import SchemaBeans.Proofs.Imports
import SchemaBeans.Proofs.Paths

/-!
# Where units are placed

A unit of a loaded model is placed in the directories of its package, under the name
of its type. All of these are names of one component each, so a unit never leaves
the output root; and a type lives in no directory that is called like a source file,
so no unit is placed at or below another one.
-/

namespace SchemaBeans

namespace Identifier

variable {name : String}

/-- An identifier is not empty. -/
theorem ne_empty_of_isIdentifier (valid : isIdentifier name = true) : name ≠ "" :=
  (wellNamed_of_isIdentifier valid).ne_empty

/-- An identifier is one component of every path that it is appended to. -/
theorem isName_of_isIdentifier (valid : isIdentifier name = true) : Path.IsName name := by
  have dot := not_mem_of_isIdentifier valid (show isPart '.' = false by decide)
  refine ⟨ne_empty_of_isIdentifier valid, ?_, ?_, not_mem_of_isIdentifier valid (by decide)⟩
  · rintro rfl
    exact dot (by simp)
  · rintro rfl
    exact dot (by simp)

/-- A valid name is an identifier. -/
theorem isIdentifier_of_isValid (valid : isValid name = true) : isIdentifier name = true :=
  (Bool.and_eq_true_iff.mp valid).1

end Identifier

namespace Package

variable {base package : String} {names space : List String}

/-- The names between the dots of a package; the empty package has none. -/
def segments (package : String) : List String :=
  (Text.splitString '.' package).filter (!·.isEmpty)

/-- The path of a unit leads through the names of its package to its file. -/
theorem unitPath_eq (package typeName extension : String) :
    unitPath package typeName extension =
      Path.descend ⟨""⟩ (segments package ++ [typeName ++ "." ++ extension]) :=
  Path.descend_concat.symm

/-- Names without dots are got back from the package that they are joined to. -/
theorem splitString_joinStrings (some : names ≠ []) (plain : ∀ name ∈ names, '.' ∉ name.toList) :
    Text.splitString '.' (Text.joinStrings "." names) = names := by
  have whole : ∀ piece ∈ names.map String.toList, '.' ∉ piece := by
    intro piece inside
    obtain ⟨name, present, rfl⟩ := List.mem_map.mp inside
    exact plain name present
  have pieces := Text.split_join (by simpa using some) whole
  have dot : ".".toList = ['.'] := rfl
  rw [Text.splitString, Text.joinStrings, String.toList_ofList, dot, pieces, List.map_map]
  simp [Function.comp_def]

/-- The names that a package is joined from are got back. -/
theorem segments_joinStrings (valid : ∀ name ∈ names, Identifier.isIdentifier name = true) :
    segments (Text.joinStrings "." names) = names := by
  by_cases some : names = []
  · subst some
    rfl
  · have plain : ∀ name ∈ names, '.' ∉ name.toList := fun name present =>
      Identifier.not_mem_of_isIdentifier (valid name present) (by decide)
    rw [segments, splitString_joinStrings some plain, List.filter_eq_self]
    intro name present
    have given := Identifier.ne_empty_of_isIdentifier (valid name present)
    simpa using given

/-- A package is its valid names, joined with dots. -/
theorem exists_joinStrings_eq (valid : Identifier.isPackage package = true) :
    ∃ names, (∀ name ∈ names, Identifier.isValid name = true) ∧
      Text.joinStrings "." names = package := by
  rcases Bool.or_eq_true_iff.mp valid with empty | checked
  · refine ⟨[], by simp, ?_⟩
    rw [String.isEmpty_iff.mp empty]
    rfl
  · exact ⟨_, List.all_eq_true.mp checked, Text.joinStrings_splitString package⟩

/-- Valid names, joined with dots, are a package. -/
theorem isPackage_joinStrings (valid : ∀ name ∈ names, Identifier.isValid name = true) :
    Identifier.isPackage (Text.joinStrings "." names) = true := by
  by_cases some : names = []
  · subst some
    rfl
  · have plain : ∀ name ∈ names, '.' ∉ name.toList := fun name present =>
      Identifier.not_mem_of_isIdentifier
        (Identifier.isIdentifier_of_isValid (valid name present)) (by decide)
    rw [Identifier.isPackage, splitString_joinStrings some plain, Bool.or_eq_true_iff]
    exact .inr (List.all_eq_true.mpr valid)

/-- It makes no difference to a package whether its first names were joined before. -/
theorem joinStrings_cons_joinStrings (some : names ≠ []) :
    Text.joinStrings "." (Text.joinStrings "." names :: space) =
      Text.joinStrings "." (names ++ space) := by
  rw [← String.toList_inj]
  simp only [Text.joinStrings, List.map_cons, String.toList_ofList, List.map_append]
  by_cases alone : space = []
  · simp [alone, Text.join]
  · rw [Text.join_cons (by simpa using alone),
      Text.join_append (by simpa using some) (by simpa using alone)]

/-- The package of a namespace is made of the names of the base package and those of the
namespace. -/
theorem qualify_eq (valid : ∀ name ∈ names, Identifier.isIdentifier name = true) :
    qualify (Text.joinStrings "." names) space = Text.joinStrings "." (names ++ space) := by
  by_cases some : names = []
  · subst some
    rfl
  · have given : Text.joinStrings "." names ≠ "" := by
      intro empty
      have same := segments_joinStrings valid
      rw [empty] at same
      exact some same.symm
    rw [qualify, if_neg (by simpa using given), joinStrings_cons_joinStrings some]

/-- No reserved word is left when an underscore is put behind one. -/
theorem isValid_segment (directory : String) : Identifier.isValid (segment directory) = true := by
  have freed : ∀ word ∈ Identifier.reservedWords, Identifier.isReserved (word ++ "_") = false := by
    decide +kernel
  have unreserved : ∀ name : String, Identifier.isReserved
      (if Identifier.isReserved name then name ++ "_" else name) = false := by
    intro name
    split
    · next reserved => exact freed name (List.contains_iff_mem.mp reserved)
    · next free => exact Bool.eq_false_iff.mpr free
  have free : Identifier.isReserved (segment directory) = false := unreserved _
  rw [Identifier.isValid, isIdentifier_segment, free]
  rfl

/-- The names in the namespace of a document are valid. -/
theorem isValid_of_mem_namespaceOf {directories : List String} {name : String}
    (inside : name ∈ namespaceOf directories) : Identifier.isValid name = true := by
  obtain ⟨directory, _, rfl⟩ := List.mem_map.mp inside
  exact isValid_segment directory

/-- The package of a namespace of directories below a base package, by its names. -/
theorem exists_qualify_eq (valid : Identifier.isPackage base = true) :
    ∃ names, (∀ name ∈ names, Identifier.isValid name = true) ∧
      ∀ directories, qualify base (namespaceOf directories) =
        Text.joinStrings "." (names ++ namespaceOf directories) := by
  obtain ⟨names, validNames, rfl⟩ := exists_joinStrings_eq valid
  refine ⟨names, validNames, fun directories => qualify_eq ?_⟩
  exact fun name present => Identifier.isIdentifier_of_isValid (validNames name present)

end Package

namespace SourceUnit

/-- The directory of a unit is that of its package, and its file is called like its type: its
path leads down from where it starts, one name after the other. -/
structure Placed (unit : SourceUnit) : Prop where
  package : Identifier.isPackage unit.package = true
  relative : unit.relative.isAbsolute = false
  named : ∀ component ∈ unit.relative.components, ∃ name, component = .name name
  directories :
    Text.joinStrings "." (unit.relative.components.dropLast.map Component.text) = unit.package
  file : unit.relative.components.getLast? = some (.name (unit.typeName ++ ".java"))

end SourceUnit

namespace Bean

variable {options : EmitOptions} {base : String} {index : Index} {model : Model}
  {unit : SourceUnit}

/-- The name of the file of a type. -/
def fileName (typeName : String) : String := typeName ++ "." ++ extension

/-- Different types have different files. -/
theorem fileName_injective {left right : String} (same : fileName left = fileName right) :
    left = right := by
  have texts := congrArg String.toList same
  simp only [fileName, String.toList_append] at texts
  exact String.toList_inj.mp (List.append_cancel_right (List.append_cancel_right texts))

/-- The name of a file holds a dot, so it is no name of a directory of a package. -/
theorem dot_mem_fileName (typeName : String) : '.' ∈ (fileName typeName).toList := by
  simp [fileName]

/-- The name of a file is a single name of a path. -/
theorem isName_fileName {typeName : String} (valid : Identifier.isIdentifier typeName = true) :
    Path.IsName (fileName typeName) := by
  have starts : ∃ first rest, (fileName typeName).toList = first :: rest ∧
      Identifier.isStart first = true := by
    obtain ⟨first, rest, same, start⟩ := (Identifier.wellNamed_of_isIdentifier valid).start
    exact ⟨first, rest ++ ".".toList ++ extension.toList, by simp [fileName, same], start⟩
  obtain ⟨first, rest, same, start⟩ := starts
  refine ⟨?_, ?_, ?_, ?_⟩
  · intro empty
    rw [empty] at same
    cases same
  · intro here
    rw [here] at same
    cases same
    cases start
  · intro up
    rw [up] at same
    cases same
    cases start
  · have whole := Identifier.not_mem_of_isIdentifier valid
      (show Identifier.isPart '/' = false by decide)
    simp [fileName, extension, whole]

/-- The path of the unit of a model. -/
def pathOf (base : String) (model : Model) : Path :=
  Package.unitPath (Package.qualify base model.space) model.typeName extension

/-- A unit has the package, the name and the place of its model. -/
theorem unit_of_emit (emitted : emit options index model = .ok unit) :
    unit.package = Package.qualify options.basePackage model.space ∧
      unit.typeName = model.typeName ∧ unit.relative = pathOf options.basePackage model := by
  obtain ⟨fields, _, rfl⟩ := emit_eq_ok_iff.mp emitted
  exact ⟨rfl, rfl, rfl⟩

/-- The names of the directories of a loaded model are valid. -/
theorem isValid_of_mem_directories {names : List String} (loadable : model.Loadable)
    (valid : ∀ name ∈ names, Identifier.isValid name = true) {name : String}
    (inside : name ∈ names ++ model.space) : Identifier.isValid name = true := by
  rcases List.mem_append.mp inside with base | inner
  · exact valid name base
  · obtain ⟨directories, same⟩ := loadable.space
    rw [same] at inner
    exact Package.isValid_of_mem_namespaceOf inner

/-- The names that the unit of a loaded model is placed by, with those of the base package in
front. -/
def placeNames (names : List String) (model : Model) : List String :=
  names ++ model.space ++ [fileName model.typeName]

/-- The directories of a unit and its file have names of paths. -/
theorem isName_of_mem_placeNames {names : List String} (loadable : model.Loadable)
    (valid : ∀ name ∈ names, Identifier.isValid name = true) :
    ∀ name ∈ placeNames names model, Path.IsName name := by
  intro name inside
  rcases List.mem_append.mp inside with directory | file
  · have checked := isValid_of_mem_directories loadable valid directory
    exact Identifier.isName_of_isIdentifier (Identifier.isIdentifier_of_isValid checked)
  · rw [List.mem_singleton.mp file]
    exact isName_fileName loadable.typeName

/-- The package and the path of the units of loaded models, by their names. -/
theorem exists_pathOf_eq (package : Identifier.isPackage base = true) :
    ∃ names, (∀ name ∈ names, Identifier.isValid name = true) ∧
      ∀ {model : Model}, model.Loadable →
        Package.qualify base model.space = Text.joinStrings "." (names ++ model.space) ∧
          pathOf base model = Path.descend ⟨""⟩ (placeNames names model) := by
  obtain ⟨names, valid, qualified⟩ := Package.exists_qualify_eq package
  refine ⟨names, valid, ?_⟩
  intro model loadable
  have joined : Package.qualify base model.space =
      Text.joinStrings "." (names ++ model.space) := by
    obtain ⟨directories, same⟩ := loadable.space
    rw [same, qualified]
  refine ⟨joined, ?_⟩
  have identifiers : ∀ name ∈ names ++ model.space, Identifier.isIdentifier name = true :=
    fun _ inside => Identifier.isIdentifier_of_isValid
      (isValid_of_mem_directories loadable valid inside)
  rw [pathOf, Package.unitPath_eq, joined, Package.segments_joinStrings identifiers]
  rfl

/-- The unit of a loaded model is placed by names alone. -/
theorem isPlain_pathOf (package : Identifier.isPackage base = true) (loadable : model.Loadable) :
    (pathOf base model).IsPlain := by
  obtain ⟨names, valid, each⟩ := exists_pathOf_eq package
  rw [(each loadable).2]
  exact Path.isPlain_descend (isName_of_mem_placeNames loadable valid) (by simp [placeNames])

/-- A namespace holds no file name. -/
theorem fileName_not_mem_space (loadable : model.Loadable) (typeName : String) :
    fileName typeName ∉ model.space := by
  intro inside
  obtain ⟨directories, same⟩ := loadable.space
  rw [same] at inside
  have valid := Identifier.isIdentifier_of_isValid (Package.isValid_of_mem_namespaceOf inside)
  exact Identifier.not_mem_of_isIdentifier valid (by decide) (dot_mem_fileName typeName)

/-- A model that is not called like another one is not placed at or above it. -/
theorem not_prefix_of_ne {other : Model} (loadable : other.Loadable)
    (different : QualifiedName.ofModel model ≠ QualifiedName.ofModel other) :
    ¬ model.space ++ [fileName model.typeName] <+: other.space ++ [fileName other.typeName] := by
  intro above
  rcases List.prefix_concat_iff.mp above with same | inside
  · obtain ⟨spaces, files⟩ := List.append_inj' same rfl
    have typeNames := fileName_injective (List.singleton_inj.mp files)
    exact different (by rw [QualifiedName.ofModel, QualifiedName.ofModel, spaces, typeNames])
  · have present : fileName model.typeName ∈ other.space := inside.subset (by simp)
    exact fileName_not_mem_space loadable model.typeName present

/-- Loaded models that are not called alike are placed apart. -/
theorem apart_pathOf (package : Identifier.isPackage base = true) {other : Model}
    (loadable : model.Loadable) (otherLoadable : other.Loadable)
    (different : QualifiedName.ofModel model ≠ QualifiedName.ofModel other) :
    (pathOf base model).Apart (pathOf base other) := by
  obtain ⟨names, valid, each⟩ := exists_pathOf_eq package
  have below : ∀ left right : List String,
      (names ++ left).map Component.name <+: (names ++ right).map Component.name →
        left <+: right := by
    intro left right above
    have inner := (List.prefix_map_iff_of_injective Path.name_injective).mp above
    exact (List.prefix_append_right_inj names).mp inner
  rw [Path.Apart, (each loadable).2, (each otherLoadable).2,
    Path.components_descend_empty (isName_of_mem_placeNames loadable valid),
    Path.components_descend_empty (isName_of_mem_placeNames otherLoadable valid),
    placeNames, placeNames, List.append_assoc, List.append_assoc]
  constructor
  · intro above
    exact not_prefix_of_ne otherLoadable different (below _ _ above)
  · intro above
    exact not_prefix_of_ne loadable different.symm (below _ _ above)

/-- The unit of a loaded model is placed where its package and its type say. -/
theorem placed_of_emit (package : Identifier.isPackage options.basePackage = true)
    (loadable : model.Loadable) (emitted : emit options index model = .ok unit) : unit.Placed := by
  obtain ⟨names, valid, each⟩ := exists_pathOf_eq package
  obtain ⟨joined, placed⟩ := each loadable
  obtain ⟨qualified, typeName, relative⟩ := unit_of_emit emitted
  have components : unit.relative.components = (placeNames names model).map .name := by
    rw [relative, placed,
      Path.components_descend_empty (isName_of_mem_placeNames loadable valid)]
  have texts : ∀ names : List String, (names.map Component.name).map Component.text = names := by
    intro names
    simp [Function.comp_def, Component.text]
  constructor
  · rw [qualified, joined]
    exact Package.isPackage_joinStrings fun _ => isValid_of_mem_directories loadable valid
  · rw [relative]
    exact (isPlain_pathOf package loadable).not_isAbsolute
  · rw [components]
    intro component inside
    obtain ⟨name, _, rfl⟩ := List.mem_map.mp inside
    exact ⟨name, rfl⟩
  · rw [components, placeNames, List.map_append, List.map_singleton, List.dropLast_concat, texts,
      qualified, joined]
  · rw [components, placeNames, List.map_append, List.map_singleton, List.getLast?_concat, typeName,
      fileName, String.append_assoc]
    rfl

/-- Each unit of a loaded model is placed where its package and its type say, and no two units of
models with different qualified names are placed at or below one another. -/
theorem units_placed_apart (options : EmitOptions)
    (package : Identifier.isPackage options.basePackage = true)
    (model other : Model) (loadable : model.Loadable) (otherLoadable : other.Loadable)
    (index otherIndex : Index) (unit otherUnit : SourceUnit)
    (emitted : emit options index model = .ok unit)
    (otherEmitted : emit options otherIndex other = .ok otherUnit) :
    unit.typeName = model.typeName ∧ unit.Placed ∧
      (QualifiedName.ofModel model ≠ QualifiedName.ofModel other →
        unit.relative.Apart otherUnit.relative) := by
  refine ⟨(unit_of_emit emitted).2.1, placed_of_emit package loadable emitted, ?_⟩
  intro different
  rw [(unit_of_emit emitted).2.2, (unit_of_emit otherEmitted).2.2]
  exact apart_pathOf package loadable otherLoadable different

/-- An item and an order, each the only type of its namespace, are placed apart. -/
theorem item_placed_apart_from_order :
    ∃ item order,
      emit ⟨"com.example", []⟩ (Index.ofModels itemAndOrder) itemAndOrder[0] = .ok item ∧
      emit ⟨"com.example", []⟩ (Index.ofModels itemAndOrder) itemAndOrder[1] = .ok order ∧
      item.Placed ∧ item.relative.Apart order.relative := by
  have present : ∀ place (bound : place < 2), itemAndOrder[place] ∈ itemAndOrder :=
    fun place bound => List.getElem_mem bound
  obtain ⟨item, emitted⟩ : ∃ unit,
      emit ⟨"com.example", []⟩ (Index.ofModels itemAndOrder) itemAndOrder[0] = .ok unit := ⟨_, rfl⟩
  obtain ⟨order, emittedToo⟩ : ∃ unit,
      emit ⟨"com.example", []⟩ (Index.ofModels itemAndOrder) itemAndOrder[1] = .ok unit := ⟨_, rfl⟩
  obtain ⟨_, placed, apart⟩ := units_placed_apart ⟨"com.example", []⟩ (by decide +kernel)
    itemAndOrder[0] itemAndOrder[1] (loadable_itemAndOrder _ (present 0 (by decide)))
    (loadable_itemAndOrder _ (present 1 (by decide))) _ _ item order emitted emittedToo
  exact ⟨item, order, emitted, emittedToo, placed, apart (by decide)⟩

end Bean

end SchemaBeans
