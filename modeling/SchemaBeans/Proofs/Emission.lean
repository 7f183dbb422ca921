import SchemaBeans.Proofs.ClassLines
import SchemaBeans.Proofs.Names
import SchemaBeans.Proofs.Resolution
import SchemaBeans.Proofs.Traversal

/-!
# Emitting a class

A class is emitted when each of its references resolves. Apart from the types of
the platform, its imports are then exactly those that its references ask for,
and no name in it breaks a line.
-/

namespace SchemaBeans

namespace Bean

variable {base name : String} {index : Index} {model : Model} {boxed : Bool} {type : TypeRef}
  {text : TypeText}

/-- A reference is written when it is resolved, as the model that it is resolved to. -/
theorem typeText_model_eq_ok_iff :
    typeText base index model boxed (.model name) = .ok text ↔
      ∃ target, index.resolve name model.space = .ok target ∧
        text = modelText base model target := by
  cases outcome : index.resolve name model.space <;> simp [typeText, outcome, eq_comm]

/-- A list is written when its elements are, with their type boxed. -/
theorem typeText_list_eq_ok_iff :
    typeText base index model boxed (.list type) = .ok text ↔
      ∃ inner, typeText base index model true type = .ok inner ∧
        text = ⟨"List<" ++ inner.text ++ ">", listImport :: inner.imports⟩ := by
  cases outcome : typeText base index model true type <;>
    simp [typeText, outcome, Except.map, eq_comm]

/-- A type is written if the model that it mentions can be found. -/
theorem exists_typeText_eq_ok (resolves : ∀ reference, type.reference? = some reference →
    ∃ target, index.resolve reference model.space = .ok target) :
    ∃ text, typeText base index model boxed type = .ok text := by
  induction type generalizing boxed with
  | primitive type => exact ⟨_, rfl⟩
  | model name =>
      obtain ⟨target, resolved⟩ := resolves name rfl
      exact ⟨_, typeText_model_eq_ok_iff.mpr ⟨target, resolved, rfl⟩⟩
  | list element hypothesis =>
      obtain ⟨inner, written⟩ := @hypothesis true resolves
      exact ⟨_, typeText_list_eq_ok_iff.mpr ⟨inner, written, rfl⟩⟩

/-- A name belongs to the platform: to its packages of numbers and times, or it is that of its
list. -/
def IsPlatform (name : String) : Prop :=
  "java.math.".toList <+: name.toList ∨ "java.time.".toList <+: name.toList ∨ name = listImport

/-- The imports of primitives belong to the platform. -/
theorem isPlatform_of_mem_primitiveImports {type : Primitive}
    (inside : name ∈ primitiveImports type) : IsPlatform name := by
  cases type <;> simp only [primitiveImports, List.mem_singleton, List.not_mem_nil] at inside <;>
    subst inside <;> unfold IsPlatform <;> decide

/-- Apart from the platform, a type imports what the model that it mentions asks for. -/
theorem mem_imports_typeText_iff (written : typeText base index model boxed type = .ok text)
    (foreign : ¬ IsPlatform name) :
    name ∈ text.imports ↔ ∃ reference target, type.reference? = some reference ∧
      index.resolve reference model.space = .ok target ∧
      name ∈ (modelText base model target).imports := by
  induction type generalizing boxed text with
  | primitive type =>
      cases written
      simpa [TypeRef.reference?] using mt isPlatform_of_mem_primitiveImports foreign
  | model reference =>
      obtain ⟨target, resolved, rfl⟩ := typeText_model_eq_ok_iff.mp written
      simp [TypeRef.reference?, resolved]
  | list element hypothesis =>
      obtain ⟨inner, writtenInner, rfl⟩ := typeText_list_eq_ok_iff.mp written
      have different : name ≠ listImport := fun same => foreign (.inr (.inr same))
      rw [List.mem_cons, or_iff_right different]
      exact hypothesis writtenInner

/-- A character that stands in no name and in no other part of a type. -/
structure Foreign (character : Char) : Prop where
  part : Identifier.isPart character = false
  mark : character ∉ ".<>[]".toList

/-- A line feed stands in no name. -/
theorem foreign_lineFeed : Foreign '\n' := ⟨by decide, by decide⟩

variable {character : Char}

/-- A dot is a part of types, so it is not foreign to them. -/
theorem Foreign.ne_dot (foreign : Foreign character) : character ≠ '.' := by
  rintro rfl
  exact foreign.mark (by decide)

/-- Whether a character stands in a name or in another part of a type. -/
def isTypePart (character : Char) : Bool :=
  Identifier.isPart character || ".<>[]".toList.contains character

/-- A foreign character is not in a text that is made of the parts of types. -/
theorem Foreign.not_mem_of_parts (foreign : Foreign character) {text : List Char}
    (parts : text.all isTypePart = true) : character ∉ text := by
  intro inside
  rcases Bool.or_eq_true_iff.mp (List.all_eq_true.mp parts character inside) with part | mark
  · rw [foreign.part] at part
    cases part
  · exact foreign.mark (List.contains_iff_mem.mp mark)

/-- A foreign character is neither in the name under which a model is used nor in its import. -/
theorem not_mem_modelText {target : QualifiedName} (foreign : Foreign character)
    (outer : character ∉ base.toList) (named : target.Identified) :
    character ∉ (modelText base model target).text.toList ∧
      ∀ name ∈ (modelText base model target).imports, character ∉ name.toList := by
  have own := Identifier.not_mem_of_isIdentifier named.typeName foreign.part
  have qualified : character ∉ (target.package base ++ "." ++ target.typeName).toList := by
    have package : character ∉ (target.package base).toList :=
      Package.not_mem_qualify foreign.ne_dot outer fun segment inside =>
        Identifier.not_mem_of_isIdentifier (named.space segment inside) foreign.part
    simp [package, own, foreign.ne_dot]
  simp only [modelText]
  split
  · exact ⟨own, by simp⟩
  · split
    · exact ⟨qualified, by simp⟩
    · exact ⟨own, by simpa using qualified⟩

/-- No type holds a foreign character that the base package does not hold, and no import of it
does. -/
theorem not_mem_typeText (foreign : Foreign character) (outer : character ∉ base.toList)
    (named : ∀ name ∈ index.names, name.Identified)
    (written : typeText base index model boxed type = .ok text) :
    character ∉ text.text.toList ∧ ∀ name ∈ text.imports, character ∉ name.toList := by
  induction type generalizing boxed text with
  | primitive type =>
      cases written
      have parts : ∀ name ∈ primitiveImports type, name.toList.all isTypePart = true := by
        cases type <;> decide
      exact ⟨foreign.not_mem_of_parts (by cases boxed <;> cases type <;> decide),
        fun name inside => foreign.not_mem_of_parts (parts name inside)⟩
  | model reference =>
      obtain ⟨target, resolved, rfl⟩ := typeText_model_eq_ok_iff.mp written
      have candidate := (Index.resolve_eq_ok_iff.mp resolved).candidate
      exact not_mem_modelText foreign outer (named _ (Index.mem_candidates.mp candidate).1)
  | list element hypothesis =>
      obtain ⟨inner, writtenInner, rfl⟩ := typeText_list_eq_ok_iff.mp written
      obtain ⟨whole, imports⟩ := hypothesis writtenInner
      have opening : character ∉ "List<".toList := foreign.not_mem_of_parts (by decide)
      have closing : character ∉ ">".toList := foreign.not_mem_of_parts (by decide)
      refine ⟨?_, List.forall_mem_cons.mpr ⟨foreign.not_mem_of_parts (by decide), imports⟩⟩
      simp only [String.toList_append, List.mem_append, not_or]
      exact ⟨⟨opening, whole⟩, closing⟩

variable {fields : List Field} {options : EmitOptions}

/-- A field is written when its type is. -/
theorem field_eq_ok_iff {property : Property} {written : Field} :
    field base index model property = .ok written ↔
      ∃ type, typeText base index model false property.type = .ok type ∧
        written = ⟨property, type⟩ := by
  cases outcome : typeText base index model false property.type <;>
    simp [field, outcome, eq_comm]

/-- The fields of a model are written if all its references resolve. -/
theorem exists_fields (resolves : ∀ reference ∈ model.references,
    ∃ target, index.resolve reference model.space = .ok target) :
    ∃ fields, model.properties.mapM (field base index model) = .ok fields := by
  refine exists_mapM_eq_ok fun property declared => ?_
  have written := @exists_typeText_eq_ok base index model false property.type
    fun reference mentioned => resolves reference (List.mem_filterMap.mpr ⟨_, declared, mentioned⟩)
  obtain ⟨type, written⟩ := written
  exact ⟨_, field_eq_ok_iff.mpr ⟨type, written, rfl⟩⟩

/-- A unit is made of the fields of its model. -/
theorem emit_eq_ok_iff {unit : SourceUnit} :
    emit options index model = .ok unit ↔
      ∃ fields, model.properties.mapM (field options.basePackage index model) = .ok fields ∧
        unit =
          { package := Package.qualify options.basePackage model.space
            typeName := model.typeName
            source := sourceText options model fields
            relative := Package.unitPath (Package.qualify options.basePackage model.space)
              model.typeName extension } := by
  cases outcome : model.properties.mapM (field options.basePackage index model) <;>
    simp [emit, outcome, Except.map, eq_comm]

/-- A model asks for an import of a type of another package that is not called like the model. -/
theorem mem_imports_modelText_iff {target : QualifiedName} :
    name ∈ (modelText base model target).imports ↔
      target.package base ≠ Package.qualify base model.space ∧
        target.typeName ≠ model.typeName ∧
        name = target.package base ++ "." ++ target.typeName := by
  simp only [modelText]
  split
  · next same => simp [same]
  · next different =>
      split
      · next called => simp [called]
      · next otherwise => simp [different, otherwise]

/-- Apart from the platform, a class imports what its references ask for. -/
theorem mem_imports_iff
    (written : model.properties.mapM (field base index model) = .ok fields)
    (foreign : ¬ IsPlatform name) :
    name ∈ imports fields ↔ ∃ reference ∈ model.references, ∃ target,
      index.resolve reference model.space = .ok target ∧
        name ∈ (modelText base model target).imports := by
  rw [imports, Sorted.mem_ofList, List.mem_flatMap]
  constructor
  · rintro ⟨field, present, inside⟩
    obtain ⟨property, declared, made⟩ := (mem_iff_of_mapM_eq_ok written).mp present
    obtain ⟨type, typed, rfl⟩ := field_eq_ok_iff.mp made
    obtain ⟨reference, target, mentioned, resolved, asked⟩ :=
      (mem_imports_typeText_iff typed foreign).mp inside
    exact ⟨reference, List.mem_filterMap.mpr ⟨property, declared, mentioned⟩, target, resolved,
      asked⟩
  · rintro ⟨reference, mentions, target, resolved, asked⟩
    obtain ⟨property, declared, mentioned⟩ := List.mem_filterMap.mp mentions
    have resolves : ∀ other, property.type.reference? = some other →
        ∃ target, index.resolve other model.space = .ok target := by
      intro other mentionedToo
      obtain rfl := Option.some.inj (mentioned.symm.trans mentionedToo)
      exact ⟨target, resolved⟩
    obtain ⟨type, typed⟩ := @exists_typeText_eq_ok base index model false _ resolves
    have made := field_eq_ok_iff.mpr ⟨type, typed, rfl⟩
    refine ⟨_, (mem_iff_of_mapM_eq_ok written).mpr ⟨property, declared, made⟩, ?_⟩
    exact (mem_imports_typeText_iff typed foreign).mpr
      ⟨reference, target, mentioned, resolved, asked⟩

/-- No import of a class holds a foreign character that the base package does not hold. -/
theorem not_mem_imports (foreign : Foreign character) (outer : character ∉ base.toList)
    (named : ∀ name ∈ index.names, name.Identified)
    (written : model.properties.mapM (field base index model) = .ok fields) :
    ∀ name ∈ imports fields, character ∉ name.toList := by
  intro name inside
  rw [imports, Sorted.mem_ofList, List.mem_flatMap] at inside
  obtain ⟨field, present, asked⟩ := inside
  obtain ⟨property, _, made⟩ := (mem_iff_of_mapM_eq_ok written).mp present
  obtain ⟨type, typed, rfl⟩ := field_eq_ok_iff.mp made
  exact (not_mem_typeText foreign outer named typed).2 name asked

/-- A class of a loaded model among types with identifiers has no line feed in any of its names, as
long as the base package has none. -/
theorem unbroken_of_loadable (outer : '\n' ∉ options.basePackage.toList)
    (loadable : model.Loadable) (named : ∀ name ∈ index.names, name.Identified)
    (written : model.properties.mapM (field options.basePackage index model) = .ok fields) :
    Unbroken options model fields := by
  have made : ∀ field ∈ fields, ∃ property ∈ model.properties, ∃ type,
      typeText options.basePackage index model false property.type = .ok type ∧
        field = ⟨property, type⟩ := by
    intro field present
    obtain ⟨property, declared, made⟩ := (mem_iff_of_mapM_eq_ok written).mp present
    exact ⟨property, declared, field_eq_ok_iff.mp made⟩
  have identifiers : ∀ field ∈ fields, Identifier.isIdentifier field.property.name = true := by
    intro field present
    obtain ⟨property, declared, type, _, rfl⟩ := made field present
    exact loadable.propertyName declared
  have identified := loadable.identified
  exact {
    package := Package.not_mem_qualify (by decide) outer fun segment inside =>
      Identifier.lineFeed_not_mem (identified.space segment inside)
    imports := not_mem_imports foreign_lineFeed outer named written
    typeName := Identifier.lineFeed_not_mem identified.typeName
    types := by
      intro field present
      obtain ⟨property, _, type, typed, rfl⟩ := made field present
      exact (not_mem_typeText foreign_lineFeed outer named typed).1
    names := fun field present => Identifier.lineFeed_not_mem (identifiers field present)
    stems := fun field present => Identifier.lineFeed_not_mem_stem (identifiers field present) }

end Bean

end SchemaBeans
