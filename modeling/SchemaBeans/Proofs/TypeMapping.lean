import SchemaBeans.Proofs.TypeNames

/-!
# How types become those of a class

A type is some number of lists around a base. The class writes it as that many
lists around the name of the base: the boxed name of a primitive below a list and
its plain name else, and the simple name of the model that a reference means. What
the class imports follows from the bases and from whether there are lists at all.
-/

namespace SchemaBeans

namespace TypeRef

variable {depth : Nat} {base : TypeRef} {primitive : Primitive} {name : String}

/-- Every type is lists around a primitive or around a reference. -/
theorem exists_base (type : TypeRef) :
    (∃ depth primitive, type = list^[depth] (.primitive primitive)) ∨
      ∃ depth name, type = list^[depth] (.model name) := by
  induction type with
  | primitive primitive => exact .inl ⟨0, primitive, rfl⟩
  | model name => exact .inr ⟨0, name, rfl⟩
  | list element hypothesis =>
      rcases hypothesis with ⟨depth, primitive, rfl⟩ | ⟨depth, name, rfl⟩
      · exact .inl ⟨depth + 1, primitive, (Function.iterate_succ_apply' ..).symm⟩
      · exact .inr ⟨depth + 1, name, (Function.iterate_succ_apply' ..).symm⟩

/-- Lists of a type refer to what the type refers to. -/
theorem reference?_iterate : (list^[depth] base).reference? = base.reference? := by
  induction depth with
  | zero => rfl
  | succ depth hypothesis => rw [Function.iterate_succ_apply', reference?, hypothesis]

/-- A primitive is no list, so it is a type in no lists at all. -/
theorem primitive_eq_iterate_iff :
    TypeRef.primitive primitive = list^[depth] base ↔ depth = 0 ∧ base = .primitive primitive := by
  cases depth <;> simp [Function.iterate_succ_apply', eq_comm]

/-- A list is made of a primitive when its elements are. -/
theorem exists_list_eq_iterate_iff {element : TypeRef} :
    (∃ depth, list element = list^[depth] (.primitive primitive)) ↔
      ∃ depth, element = list^[depth] (.primitive primitive) := by
  constructor
  · rintro ⟨_ | depth, same⟩
    · cases same
    · rw [Function.iterate_succ_apply', list.injEq] at same
      exact ⟨depth, same⟩
  · rintro ⟨depth, rfl⟩
    exact ⟨depth + 1, (Function.iterate_succ_apply' ..).symm⟩

/-- A model is made of no primitive. -/
theorem model_ne_iterate : TypeRef.model name ≠ list^[depth] (.primitive primitive) := by
  intro same
  have mentioned := congrArg reference? same
  rw [reference?_iterate] at mentioned
  cases mentioned

end TypeRef

namespace Bean

/-- A text with lists around it. -/
def nested (depth : Nat) (text : String) : String :=
  (fun element => "List<" ++ element ++ ">")^[depth] text

/-- How types are written in the classes of a namespace: lists around the name of a primitive, boxed
below a list, or around the simple name of the model that is meant. -/
inductive Renders (index : Index) (space : List String) : TypeRef → String → Prop where
  | primitive (depth : Nat) (type : Primitive) :
      Renders index space (TypeRef.list^[depth] (.primitive type))
        (nested depth (if depth = 0 then plainName type else boxedName type))
  | model (depth : Nat) {reference target} (resolved : index.resolve reference space = .ok target) :
      Renders index space (TypeRef.list^[depth] (.model reference)) (nested depth target.typeName)

/-- The primitives that are imported, each with its import. -/
def primitiveImportTable : List (Primitive × String) :=
  [(.decimal, "java.math.BigDecimal"), (.date, "java.time.LocalDate"),
   (.datetime, "java.time.OffsetDateTime")]

/-- The imports that the class of a model needs: that of lists if a property is one, those of its
primitives, and those of the models of other packages that it refers to. -/
inductive Needs (base : String) (index : Index) (model : Model) : String → Prop where
  | list {property element} (declared : property ∈ model.properties)
      (listed : property.type = .list element) : Needs base index model "java.util.List"
  | primitive {property depth type name} (declared : property ∈ model.properties)
      (based : property.type = TypeRef.list^[depth] (.primitive type))
      (imported : (type, name) ∈ primitiveImportTable) : Needs base index model name
  | model {reference target} (mentioned : reference ∈ model.references)
      (resolved : index.resolve reference model.space = .ok target)
      (elsewhere : target.package base ≠ Package.qualify base model.space) :
      Needs base index model (target.package base ++ "." ++ target.typeName)

/-- The names of types that cannot be elements of lists. -/
def valueTypes : List String := ["int", "long", "float", "double", "boolean"]

variable {base name : String} {index : Index} {model : Model} {boxed : Bool} {type : TypeRef}
  {text : TypeText} {depth : Nat}

/-- One list more is written around the others. -/
theorem nested_succ (depth : Nat) (text : String) :
    nested (depth + 1) text = "List<" ++ nested depth text ++ ">" :=
  Function.iterate_succ_apply' ..

/-- Lists are written around the text of what they hold, which is boxed then. -/
theorem exists_typeText_of_iterate
    (typed : typeText base index model boxed (TypeRef.list^[depth] type) = .ok text) :
    ∃ inner, typeText base index model (boxed || depth != 0) type = .ok inner ∧
      text.text = nested depth inner.text := by
  induction depth generalizing boxed text with
  | zero => exact ⟨text, by simpa using typed, rfl⟩
  | succ depth hypothesis =>
      rw [Function.iterate_succ_apply'] at typed
      obtain ⟨element, typedElement, rfl⟩ := typeText_list_eq_ok_iff.mp typed
      obtain ⟨inner, typedInner, same⟩ := hypothesis typedElement
      exact ⟨inner, by simpa using typedInner, by rw [nested_succ, same]⟩

/-- The names in nested lists are one for each list and those inside. -/
theorem words_nested (depth : Nat) (text : String) :
    words (nested depth text).toList = List.replicate depth "List" ++ words text.toList := by
  induction depth with
  | zero => rfl
  | succ depth hypothesis => rw [nested_succ, words_list, hypothesis]; rfl

/-- The table of imports holds the imports of each primitive. -/
theorem mem_primitiveImportTable_iff {type : Primitive} :
    (type, name) ∈ primitiveImportTable ↔ name ∈ primitiveImports type := by
  cases type <;> simp [primitiveImportTable, primitiveImports]

/-- A type is written with imported types of the platform if it is a list, and if its base is one of
the primitives that are imported. -/
theorem exists_platformNames_iff :
    (∃ word ∈ platformNames boxed type, importedTypes.lookup word = some name) ↔
      (name = listImport ∧ ∃ element, type = .list element) ∨
        ∃ primitive, (primitive, name) ∈ primitiveImportTable ∧
          ∃ depth, type = TypeRef.list^[depth] (.primitive primitive) := by
  induction type generalizing boxed with
  | primitive type =>
      rw [← mem_primitiveImports_iff boxed, ← mem_primitiveImportTable_iff]
      simp [TypeRef.primitive_eq_iterate_iff]
  | model reference => simp [platformNames, TypeRef.model_ne_iterate]
  | list element hypothesis =>
      have known : importedTypes.lookup "List" = some listImport := rfl
      rw [platformNames, List.exists_mem_cons_iff, hypothesis, known]
      simp only [TypeRef.exists_list_eq_iterate_iff, Option.some.injEq]
      grind

section Kept

variable {options : EmitOptions} {models : List Model} {entry : Numbered} {fields : List Field}

/-- The fields of a class are those of the properties of its model. -/
theorem map_property_of_written
    (written : model.properties.mapM (field base index model) = .ok fields) :
    fields.map Field.property = model.properties := by
  have each : List.Forall₂ (fun property field => field.property = property)
      model.properties fields := by
    refine (forall₂_of_mapM_eq_ok written).imp fun property field made => ?_
    obtain ⟨type, _, rfl⟩ := field_eq_ok_iff.mp made
    rfl
  have same := List.forall₂_map_left_iff.mpr each.flip
  rwa [List.forall₂_eq_eq_eq] at same

/-- The types of a kept model are written as they are to be. -/
theorem renders_of_typeText (kept : entry ∈ (Analysis.ofModels models).kept)
    (typed : typeText options.basePackage (Analysis.ofModels models).index entry.2 false type =
      .ok text) :
    Renders (Analysis.ofModels models).index entry.2.space type text.text := by
  rcases type.exists_base with ⟨depth, primitive, rfl⟩ | ⟨depth, reference, rfl⟩
  · obtain ⟨inner, typedInner, same⟩ := exists_typeText_of_iterate typed
    cases typedInner
    have named : (if (false || depth != 0) = true then boxedName primitive
        else plainName primitive) =
          if depth = 0 then plainName primitive else boxedName primitive := by
      cases depth <;> simp
    rw [same, named]
    exact .primitive depth primitive
  · obtain ⟨inner, typedInner, same⟩ := exists_typeText_of_iterate typed
    obtain ⟨target, resolved, rfl⟩ := typeText_model_eq_ok_iff.mp typedInner
    rw [same, text_modelText kept resolved]
    exact .model depth resolved

/-- The class of a kept model has just the imports that it needs. -/
theorem mem_imports_iff_needs (kept : entry ∈ (Analysis.ofModels models).kept)
    (written : entry.2.properties.mapM
      (field options.basePackage (Analysis.ofModels models).index entry.2) = .ok fields) :
    name ∈ imports fields ↔
      Needs options.basePackage (Analysis.ofModels models).index entry.2 name := by
  rw [mem_imports kept written]
  constructor
  · rintro (⟨word, used, known⟩ | ⟨reference, mentioned, target, resolved, elsewhere, rfl⟩)
    · obtain ⟨property, declared, used⟩ := List.mem_flatMap.mp used
      rcases exists_platformNames_iff.mp ⟨word, used, known⟩ with
        ⟨rfl, element, listed⟩ | ⟨primitive, imported, depth, based⟩
      · exact .list declared listed
      · exact .primitive declared based imported
    · exact .model mentioned resolved elsewhere
  · intro needed
    have ofProperty {property : Property} (declared : property ∈ entry.2.properties)
        (used : ∃ word ∈ platformNames false property.type, importedTypes.lookup word = some name) :
        ∃ word ∈ platformNamesOf entry.2, importedTypes.lookup word = some name := by
      obtain ⟨word, used, known⟩ := used
      exact ⟨word, List.mem_flatMap.mpr ⟨property, declared, used⟩, known⟩
    cases needed with
    | list declared listed =>
        exact .inl (ofProperty declared (exists_platformNames_iff.mpr (.inl ⟨rfl, _, listed⟩)))
    | primitive declared based imported =>
        exact .inl (ofProperty declared
          (exists_platformNames_iff.mpr (.inr ⟨_, imported, _, based⟩)))
    | model mentioned resolved elsewhere =>
        exact .inr ⟨_, mentioned, _, resolved, elsewhere, rfl⟩

/-- The name of a primitive that is no class stands in a type only by itself. -/
theorem mem_words_iff (loadable : ∀ model ∈ models, model.Loadable) {text : String}
    (rendered : Renders (Analysis.ofModels models).index entry.2.space type text)
    (unboxed : name ∈ valueTypes) :
    name ∈ words text.toList ↔ ∃ primitive, type = .primitive primitive ∧
      plainName primitive = name := by
  have lists (depth : Nat) : name ∉ List.replicate depth "List" := by
    intro inside
    rw [List.eq_of_mem_replicate inside] at unboxed
    exact absurd unboxed (by decide)
  cases rendered with
  | primitive depth type =>
      rw [words_nested, List.mem_append, or_iff_right (lists depth)]
      cases depth with
      | zero =>
          have plain : ∀ name ∈ valueTypes,
              name = primitiveWord false type ↔ plainName type = name := by
            cases type <;> decide
          have written : words (plainName type).toList = [primitiveWord false type] :=
            words_primitive false type
          simpa [written] using plain name unboxed
      | succ depth =>
          have boxed : ∀ name ∈ valueTypes, name ≠ primitiveWord true type := by
            cases type <;> decide
          have written : words (boxedName type).toList = [primitiveWord true type] :=
            words_primitive true type
          rw [Function.iterate_succ_apply']
          simpa [written] using boxed name unboxed
  | @model depth reference target resolved =>
      obtain ⟨valid, free⟩ := isValid_of_resolve loadable resolved
      rw [words_nested, words_identifier valid, List.mem_append, or_iff_right (lists depth),
        List.mem_singleton]
      constructor
      · -- A loaded model is not called like a reserved word, and these names are reserved.
        rintro rfl
        have reserved : ∀ name ∈ valueTypes, Identifier.isReserved name = true := by
          decide +kernel
        cases free.symm.trans (reserved _ unboxed)
      · rintro ⟨primitive, same, _⟩
        have mentioned := congrArg TypeRef.reference? same
        rw [TypeRef.reference?_iterate] at mentioned
        cases mentioned
end Kept

/-- A header has no line that looks like an import if the path of the document is on one line. -/
theorem importLinesOf_header {source : Path} (located : '\n' ∉ source.text.toList) :
    importLinesOf (header source) = [] := by
  have whole : ∀ line ∈ (headerLines source).map String.toList, '\n' ∉ line :=
    List.forall_mem_map.mpr (not_mem_of_mem_headerLines located)
  have lines : Text.lines (header source).toList = readBack (headerLines source) := by
    rw [toList_header, textOf, Text.lines_unlines whole, readBack, List.map_map]
    rfl
  rw [importLinesOf, lines]
  refine filter_readBack_of_apart fun line inside =>
    ⟨not_mem_of_mem_headerLines located line inside, ?_⟩
  simp only [headerLines, List.mem_cons, List.not_mem_nil, or_false] at inside
  rcases inside with rfl | rfl | rfl
  · unfold titleLine
    rw [String.toList_append, String.toList_append, List.append_assoc]
    simp
  · decide +kernel
  · decide

/-- The imports of a class are strictly sorted. -/
theorem pairwise_imports (fields : List Field) : (imports fields).Pairwise (· < ·) := by
  refine (Sorted.pairwise_ofList Ord.compare _).imp fun {left right} less => ?_
  exact compareOfLessAndEq_eq_lt.mp less

/-- The class of a kept model has a field for each property, written as lists around the name of its
base: the boxed name of a primitive below a list and its plain name else, or the simple name of the
model that is meant, which is the model itself by its own name. Its imports are strictly sorted, and
are just those that it needs. In a run of loaded models no name of a primitive that is no class
stands in a type but by itself, and the unit declares these imports, below those lines of its header
that look like some. -/
theorem types_mapped (options : EmitOptions) (models : List Model) (entry : Numbered)
    (kept : entry ∈ (Analysis.ofModels models).kept) :
    ∃ unit fields, emit options (Analysis.ofModels models).index entry.2 = .ok unit ∧
      unit.source = sourceText options entry.2 fields ∧
      fields.map Field.property = entry.2.properties ∧
      (∀ field ∈ fields, Renders (Analysis.ofModels models).index entry.2.space
        field.property.type field.type.text) ∧
      (∀ reference ∈ entry.2.references, ∃ target,
        (Analysis.ofModels models).index.resolve reference entry.2.space = .ok target ∧
          target.typeName = reference ∧
          (reference = entry.2.typeName → target = QualifiedName.ofModel entry.2)) ∧
      (imports fields).Pairwise (· < ·) ∧
      (∀ name, name ∈ imports fields ↔
        Needs options.basePackage (Analysis.ofModels models).index entry.2 name) ∧
      ((∀ model ∈ models, model.Loadable) →
        (∀ field ∈ fields, ∀ name ∈ valueTypes, name ∈ words field.type.text.toList ↔
          ∃ primitive, field.property.type = .primitive primitive ∧ plainName primitive = name) ∧
        (Identifier.isPackage options.basePackage = true →
          importLinesOf unit.source = importLinesOf (header entry.2.source) ++
            (imports fields).map (fun name => (importLine name).toList) ∧
          ('\n' ∉ entry.2.source.text.toList → importLinesOf (header entry.2.source) = []))) := by
  obtain ⟨unit, emitted⟩ := exists_emit_of_kept options kept
  obtain ⟨fields, written, rfl⟩ := emit_eq_ok_iff.mp emitted
  have rendered : ∀ field ∈ fields, Renders (Analysis.ofModels models).index entry.2.space
      field.property.type field.type.text := by
    intro _ present
    obtain ⟨property, _, made⟩ := (mem_iff_of_mapM_eq_ok written).mp present
    obtain ⟨type, typed, rfl⟩ := field_eq_ok_iff.mp made
    exact renders_of_typeText kept typed
  refine ⟨_, fields, emitted, rfl, map_property_of_written written, rendered, ?_,
    pairwise_imports fields, fun name => mem_imports_iff_needs kept written,
    fun loadable => ⟨?_, fun package => ⟨?_, importLinesOf_header⟩⟩⟩
  · intro reference mentioned
    obtain ⟨target, resolved⟩ := Analysis.resolve_of_kept kept mentioned
    have called := typeName_of_resolve resolved
    exact ⟨target, resolved, called,
      fun own => eq_ofModel_of_resolve kept resolved (called.trans own)⟩
  · exact fun field present name unboxed =>
      mem_words_iff loadable (rendered field present) unboxed
  · obtain ⟨others, writtenToo, lines⟩ := importLinesOf_emit package loadable kept emitted
    obtain rfl := Except.ok.inj (written.symm.trans writtenToo)
    exact lines

/-- The class of the dated order imports a date, lists and its item, in the order of their names. -/
theorem datedOrder_types_mapped :
    (1, datedOrder[1]) ∈ (Analysis.ofModels datedOrder).kept ∧
      ∃ unit fields, emit ⟨"com.example", []⟩ (Analysis.ofModels datedOrder).index datedOrder[1] =
          .ok unit ∧
        fields.map Field.property = datedOrder[1].properties ∧
        (imports fields).Pairwise (· < ·) ∧
        (∀ name ∈ ["com.example.Item", "java.time.LocalDate", "java.util.List"],
          name ∈ imports fields) ∧
        importLinesOf unit.source = (imports fields).map fun name => (importLine name).toList := by
  have kept : (1, datedOrder[1]) ∈ (Analysis.ofModels datedOrder).kept := by decide +kernel
  obtain ⟨unit, fields, emitted, _, properties, _, _, sorted, needed, loaded⟩ :=
    types_mapped ⟨"com.example", []⟩ datedOrder (1, datedOrder[1]) kept
  obtain ⟨lines, clean⟩ := (loaded loadable_datedOrder).2 (by decide +kernel)
  refine ⟨kept, unit, fields, emitted, properties, sorted, ?_, ?_⟩
  · have item : (Analysis.ofModels datedOrder).index.resolve "Item" datedOrder[1].space =
        .ok ⟨[], "Item"⟩ := by decide +kernel
    simp only [List.forall_mem_cons, needed]
    exact ⟨.model (by decide) item (by decide +kernel),
      @Needs.primitive _ _ _ ⟨"placed", .primitive .date, none⟩ 0 .date _ (by decide) rfl
        (by decide),
      @Needs.list _ _ _ ⟨"notes", .list (.primitive .string), none⟩ _ (by decide) rfl,
      fun _ none => absurd none List.not_mem_nil⟩
  · rw [lines, clean (by decide +kernel), List.nil_append]

end Bean

end SchemaBeans
