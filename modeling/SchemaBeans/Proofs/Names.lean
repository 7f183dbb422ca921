import SchemaBeans.Loading
import SchemaBeans.Proofs.Lines
import SchemaBeans.Proofs.Validity

/-!
# Names of loaded models

Everything that names a type in a generated source starts like an identifier and
holds no line feed: the names and namespaces of loaded models, a checked base
package, and the packages made of them. `WellNamed` is all that the text of a
source needs to know of its names.
-/

namespace SchemaBeans

namespace Text

/-- A joined text starts with its first piece. -/
theorem prefix_join (separator piece : List Char) (pieces : List (List Char)) :
    piece <+: join separator (piece :: pieces) := by
  cases pieces with
  | nil => exact List.prefix_refl piece
  | cons next pieces =>
      rw [join, List.append_assoc]
      · exact List.prefix_append _ _
      · exact List.cons_ne_nil _ _

/-- A package is the join of its segments. -/
theorem joinStrings_splitString (package : String) :
    joinStrings "." (splitString '.' package) = package := by
  have same := join_split '.' package.toList
  rw [joinStrings, splitString, List.map_map]
  simpa [Function.comp_def, ← String.toList_inj] using same

end Text

namespace Identifier

/-- A name starts like an identifier and stands on one line. -/
structure WellNamed (name : String) : Prop where
  start : ∃ first rest, name.toList = first :: rest ∧ isStart first = true
  whole : '\n' ∉ name.toList

/-- An identifier is a name. -/
theorem wellNamed_of_isIdentifier {name : String} (valid : isIdentifier name = true) :
    WellNamed name := by
  refine ⟨?_, lineFeed_not_mem valid⟩
  unfold isIdentifier hasShape at valid
  split at valid
  · cases valid
  · next first rest same => exact ⟨first, rest, same, (Bool.and_eq_true_iff.mp valid).1⟩

/-- A name is not empty. -/
theorem WellNamed.ne_empty {name : String} (named : WellNamed name) : name ≠ "" := by
  rintro rfl
  obtain ⟨first, rest, same, _⟩ := named.start
  cases same

/-- No name starts with the dot that separates names. -/
theorem WellNamed.ne_dot_append {name : String} (named : WellNamed name) (rest : String) :
    name ≠ "." ++ rest := by
  rintro rfl
  obtain ⟨first, others, same, start⟩ := named.start
  rw [String.toList_append] at same
  obtain ⟨rfl, _⟩ := List.cons.inj same
  exact absurd start (by decide)

/-- What follows a name on its line makes another name of it. -/
theorem WellNamed.append {left right : String} (first : WellNamed left)
    (second : '\n' ∉ right.toList) : WellNamed (left ++ right) := by
  obtain ⟨character, rest, same, start⟩ := first.start
  refine ⟨⟨character, rest ++ right.toList, ?_, start⟩, ?_⟩
  · rw [String.toList_append, same, List.cons_append]
  · rw [String.toList_append, List.mem_append]
    exact not_or.mpr ⟨first.whole, second⟩

/-- Names between dots make up a name. -/
theorem WellNamed.joinStrings {name : String} {names : List String} (first : WellNamed name)
    (others : ∀ other ∈ names, WellNamed other) :
    WellNamed (Text.joinStrings "." (name :: names)) := by
  constructor
  · obtain ⟨character, rest, same, start⟩ := first.start
    obtain ⟨more, joined⟩ := Text.prefix_join ".".toList name.toList (names.map String.toList)
    refine ⟨character, rest ++ more, ?_, start⟩
    rw [Text.joinStrings, String.toList_ofList, List.map_cons, ← joined, same, List.cons_append]
  · rw [Text.joinStrings, String.toList_ofList]
    intro feed
    rcases Text.mem_of_mem_join feed with separating | ⟨piece, present, inside⟩
    · exact absurd separating (by decide)
    · obtain ⟨other, listed, rfl⟩ := List.mem_map.mp present
      rcases List.mem_cons.mp listed with rfl | listed
      · exact first.whole inside
      · exact (others other listed).whole inside

/-- A package is empty or a name. -/
theorem wellNamed_of_isPackage {package : String} (valid : isPackage package = true)
    (given : package ≠ "") : WellNamed package := by
  have pieces : ∀ piece ∈ Text.splitString '.' package, WellNamed piece := by
    have checked := (Bool.or_eq_true_iff.mp valid).resolve_left (by simpa using given)
    intro piece inside
    have validPiece := List.all_eq_true.mp checked piece inside
    exact wellNamed_of_isIdentifier (Bool.and_eq_true_iff.mp validPiece).1
  have joined := Text.joinStrings_splitString package
  cases split : Text.splitString '.' package with
  | nil =>
      have empty := List.map_eq_nil_iff.mp split
      exact absurd empty (Text.split_ne_nil _ _)
  | cons first rest =>
      rw [split] at pieces joined
      rw [← joined]
      obtain ⟨firstNamed, others⟩ := List.forall_mem_cons.mp pieces
      exact firstNamed.joinStrings others

/-- The first character of an identifier stays on its line in upper case. -/
theorem lineFeed_not_mem_upperCase {character : Char} (start : isStart character = true) :
    '\n' ∉ Text.upperCase character := by
  have whole : ∀ character, isPart character = true → character.toUpper ≠ '\n' :=
    forall_of_isPart (by decide +kernel)
  have part := isPart_of_isStart start
  rw [upperCase_of_isPart part, List.mem_singleton]
  exact (whole character part).symm

/-- The stem of an identifier stands on one line. -/
theorem lineFeed_not_mem_stem {name : String} (valid : isIdentifier name = true) :
    '\n' ∉ (stem name).toList := by
  rw [stem, String.toList_ofList]
  unfold isIdentifier at valid
  cases same : name.toList with
  | nil => simp [Text.upperFirst]
  | cons first rest =>
      rw [same] at valid
      have whole := lineFeed_not_mem valid
      obtain ⟨start, _⟩ := Bool.and_eq_true_iff.mp valid
      rw [Text.upperFirst, List.mem_append]
      exact not_or.mpr
        ⟨lineFeed_not_mem_upperCase start, mt (List.mem_cons_of_mem _) whole⟩

end Identifier

namespace Package

/-- Every character of a directory becomes one of identifiers. -/
theorem isPart_segmentChar (character : Char) :
    Identifier.isPart (segmentChar character) = true := by
  unfold segmentChar
  split
  · assumption
  · decide

/-- The name of any directory becomes an identifier. -/
theorem isIdentifier_segment (directory : String) :
    Identifier.isIdentifier (segment directory) = true := by
  have shaped : ∀ mapped : List Char, mapped.all Identifier.isPart = true →
      Identifier.hasShape (if Identifier.hasShape mapped then mapped else '_' :: mapped) =
        true := by
    intro mapped parts
    split
    · assumption
    · rw [Identifier.hasShape_cons, parts]
      decide
  have parts : ∀ characters : List Char,
      (characters.map segmentChar).all Identifier.isPart = true := by
    simp [isPart_segmentChar]
  have unreserved : ∀ name : String, Identifier.isIdentifier name = true →
      Identifier.isIdentifier (if Identifier.isReserved name then name ++ "_" else name) =
        true := by
    intro name valid
    split
    · rw [Identifier.isIdentifier, String.toList_append]
      exact Identifier.hasShape_append valid (by decide)
    · exact valid
  refine unreserved _ ?_
  rw [Identifier.isIdentifier, String.toList_ofList]
  exact shaped _ (parts _)

/-- A package is empty only for the root namespace below no base package. -/
theorem qualify_eq_empty_or_wellNamed {base : String} {space : List String}
    (valid : Identifier.isPackage base = true)
    (named : ∀ name ∈ space, Identifier.WellNamed name) :
    (base = "" ∧ space = [] ∧ qualify base space = "") ∨
      Identifier.WellNamed (qualify base space) := by
  unfold qualify
  by_cases given : base = ""
  · subst given
    cases space with
    | nil => exact .inl ⟨rfl, rfl, rfl⟩
    | cons first rest =>
        obtain ⟨firstNamed, others⟩ := List.forall_mem_cons.mp named
        exact .inr (firstNamed.joinStrings others)
  · rw [if_neg (by simpa using given)]
    exact .inr ((Identifier.wellNamed_of_isPackage valid given).joinStrings named)

/-- A package holds the characters of its names, and dots. -/
theorem not_mem_qualify {base : String} {space : List String} {character : Char}
    (dot : character ≠ '.') (outer : character ∉ base.toList)
    (inner : ∀ name ∈ space, character ∉ name.toList) :
    character ∉ (qualify base space).toList := by
  rw [qualify, Text.joinStrings, String.toList_ofList]
  intro inside
  rcases Text.mem_of_mem_join inside with separating | ⟨piece, present, within⟩
  · exact dot (List.mem_singleton.mp separating)
  · obtain ⟨name, listed, rfl⟩ := List.mem_map.mp present
    split at listed
    · exact inner name listed within
    · rcases List.mem_cons.mp listed with rfl | listed
      · exact outer within
      · exact inner name listed within

/-- A package holds the characters of identifiers and dots only. -/
theorem not_mem_of_isPackage {package : String} {character : Char}
    (valid : Identifier.isPackage package = true) (dot : character ≠ '.')
    (other : Identifier.isPart character = false) : character ∉ package.toList := by
  rcases Bool.or_eq_true_iff.mp valid with empty | segments
  · rw [String.isEmpty_iff.mp empty]
    exact List.not_mem_nil
  · rw [← Text.join_split '.' package.toList, Text.mem_join_iff dot]
    rintro ⟨piece, present, inside⟩
    have segment := List.all_eq_true.mp segments (String.ofList piece) (List.mem_map_of_mem present)
    have named := (Bool.and_eq_true_iff.mp segment).1
    exact Identifier.not_mem_of_isIdentifier named other (String.toList_ofList ▸ inside)

end Package

/-- All parts of a qualified name are names. -/
structure QualifiedName.WellNamed (name : QualifiedName) : Prop where
  space : ∀ segment ∈ name.space, Identifier.WellNamed segment
  typeName : Identifier.WellNamed name.typeName

/-- All parts of a qualified name are identifiers. -/
structure QualifiedName.Identified (name : QualifiedName) : Prop where
  space : ∀ segment ∈ name.space, Identifier.isIdentifier segment = true
  typeName : Identifier.isIdentifier name.typeName = true

/-- A qualified name that is made of identifiers is made of names. -/
theorem QualifiedName.Identified.wellNamed {name : QualifiedName} (identified : name.Identified) :
    name.WellNamed :=
  ⟨fun segment inside => Identifier.wellNamed_of_isIdentifier (identified.space segment inside),
    Identifier.wellNamed_of_isIdentifier identified.typeName⟩

namespace SchemaDocument

variable {file : SchemaFile} {model : Model}

/-- The namespace of a model is that of the directories of its document. -/
theorem space_of_modelOf {draft : Draft} (placed : modelOf file draft = .ok model) :
    model.space = Package.namespaceOf file.directories := by
  unfold modelOf at placed
  cases read : draft.properties.mapM propertyOf with
  | error error =>
      rw [read] at placed
      cases placed
  | ok properties =>
      rw [read] at placed
      cases placed
      rfl

/-- A parsed model lives in the namespace of the directories of its document. -/
theorem space_of_parse {text : String} (parsed : parse file text = .ok model) :
    model.space = Package.namespaceOf file.directories := by
  unfold parse at parsed
  split at parsed
  · cases parsed
  · next node _ =>
      split at parsed
      · cases parsed
      · cases drafted : draftOf node with
        | error error =>
            rw [drafted] at parsed
            cases parsed
        | ok draft =>
            rw [drafted] at parsed
            exact space_of_modelOf parsed

end SchemaDocument

namespace Model

/-- What is known of a model that was loaded: it has no issues, and its namespace was made of the
directories of its document. -/
structure Loadable (model : Model) : Prop where
  issues : model.issues = []
  space : ∃ directories, model.space = Package.namespaceOf directories

variable {model : Model}

/-- Loading gives models like this only. -/
theorem loadable_of_load {file : SchemaFile} {files : FileSystem}
    (loaded : file.load files = .ok model) : model.Loadable := by
  unfold SchemaFile.load at loaded
  split at loaded
  · cases loaded
  · split at loaded
    · cases loaded
    · next parsed =>
        split at loaded
        · next clean =>
            cases loaded
            have space := SchemaDocument.space_of_parse parsed
            exact ⟨List.isEmpty_iff.mp clean, file.directories, space⟩
        · cases loaded

/-- A loaded model is valid: it passed the checks. -/
theorem Loadable.isValid (loadable : model.Loadable) : model.IsValid :=
  issues_eq_nil_iff.mp loadable.issues

/-- A loaded model is called by an identifier that is not reserved. -/
theorem Loadable.typeName_valid (loadable : model.Loadable) :
    Identifier.isIdentifier model.typeName = true ∧
      Identifier.isReserved model.typeName = false := by
  simpa [Identifier.isValid] using loadable.isValid.typeName

/-- A loaded model is called by an identifier. -/
theorem Loadable.typeName (loadable : model.Loadable) :
    Identifier.isIdentifier model.typeName = true :=
  loadable.typeName_valid.1

/-- The properties of a loaded model are called by identifiers. -/
theorem Loadable.propertyName (loadable : model.Loadable) {property : Property}
    (declared : property ∈ model.properties) :
    Identifier.isIdentifier property.name = true :=
  (Bool.and_eq_true_iff.mp (loadable.isValid.property property declared)).1

/-- The qualified name of a loaded model is made of identifiers. -/
theorem Loadable.identified (loadable : model.Loadable) :
    (QualifiedName.ofModel model).Identified := by
  refine ⟨?_, loadable.typeName⟩
  obtain ⟨directories, same⟩ := loadable.space
  simp only [QualifiedName.ofModel, same]
  intro segment inside
  obtain ⟨directory, _, rfl⟩ := List.mem_map.mp inside
  exact Package.isIdentifier_segment directory

/-- The qualified name of a loaded model is made of names. -/
theorem Loadable.wellNamed (loadable : model.Loadable) :
    (QualifiedName.ofModel model).WellNamed :=
  loadable.identified.wellNamed

end Model

end SchemaBeans
