import SchemaBeans.Proofs.Placement

/-!
# What the type names of a class mean

A class writes all types by their simple names. Imports take precedence over the
other types of its package, and these over the types of `java.lang`. `words` reads
the names off the text of a type, and `meaning?` says what a name means in a
class; against this stand the `mentions` of the type that the text was made from.
No two names clash unless a type of the platform is used by a name that the class
or one of its references has as well.
-/

namespace SchemaBeans.Bean

/-- Whether a character stands between the names of a type. -/
def isMark (character : Char) : Bool := ['<', '>', '[', ']'].contains character

/-- The names in the text of a type, in the order in which they are written. -/
def words (text : List Char) : List String :=
  ((Text.split ' ' (text.map fun character => if isMark character then ' ' else character)).filter
    (!·.isEmpty)).map String.ofList

/-- The last of the names between the dots of a qualified name. -/
def simpleName (name : String) : String := (Text.splitString '.' name).getLast?.getD ""

/-- The name of a type of a package; the default package has no name. -/
def qualifiedIn (package typeName : String) : String :=
  if package = "" then typeName else package ++ "." ++ typeName

/-- The types of `java.lang` that classes use. -/
def langTypes : List String := ["String", "Integer", "Long", "Float", "Double", "Boolean"]

/-- The other types of the platform that classes use, by their simple names. -/
def importedTypes : List (String × String) :=
  [("BigDecimal", "java.math.BigDecimal"), ("LocalDate", "java.time.LocalDate"),
   ("OffsetDateTime", "java.time.OffsetDateTime"), ("List", listImport)]

/-- The simple names of the types of the platform that classes use. -/
def platformTypes : List String := langTypes ++ importedTypes.map Prod.fst

/-- What a name means in a class with some imports, among the types of its package. -/
def meaning? (package : String) (imports neighbours : List String) (word : String) :
    Option String :=
  if Identifier.isReserved word then some word
  else
    match imports.find? (simpleName · = word) with
    | some name => some name
    | none =>
        if neighbours.contains word then some (qualifiedIn package word)
        else if langTypes.contains word then some ("java.lang." ++ word)
        else none

/-- The name under which a class uses a primitive. -/
def primitiveWord (boxed : Bool) (type : Primitive) : String :=
  if type = .bytes then "byte" else if boxed then boxedName type else plainName type

/-- The type that is used under the name of a primitive. -/
def primitiveMeaning (word : String) : String :=
  if langTypes.contains word then "java.lang." ++ word
  else (importedTypes.lookup word).getD word

/-- The names in the text of a type, each with the type that it was written for. -/
def mentions (base : String) (index : Index) (model : Model) (boxed : Bool) :
    TypeRef → List (String × String)
  | .primitive type => [(primitiveWord boxed type, primitiveMeaning (primitiveWord boxed type))]
  | .model name =>
      match index.resolve name model.space with
      | .ok target =>
          [((modelText base model target).text,
            qualifiedIn (target.package base) target.typeName)]
      | .error _ => []
  | .list element => ("List", listImport) :: mentions base index model true element

/-- The types of the platform that a type is written with, by their simple names. -/
def platformNames (boxed : Bool) : TypeRef → List String
  | .primitive type => [primitiveWord boxed type].filter platformTypes.contains
  | .model _ => []
  | .list element => "List" :: platformNames true element

/-- The types of the platform that a class uses, by their simple names. -/
def platformNamesOf (model : Model) : List String :=
  model.properties.flatMap fun property => platformNames false property.type

variable {base name : String} {index : Index} {model : Model} {boxed : Bool} {type : TypeRef}
  {text : TypeText} {package typeName word : String}

section Words

theorem words_nil : words [] = [] := rfl

/-- A mark separates the names on its sides. -/
theorem words_append {mark : Char} (marks : isMark mark = true) (left right : List Char) :
    words (left ++ mark :: right) = words left ++ words right := by
  simp [words, marks, Text.split_append]

/-- A text without marks and blanks is one name. -/
theorem words_whole {text : List Char} (given : text ≠ [])
    (whole : ∀ character ∈ text, isMark character = false ∧ character ≠ ' ') :
    words text = [String.ofList text] := by
  have same : text.map (fun character => if isMark character then ' ' else character) = text := by
    refine (List.map_congr_left fun character inside => ?_).trans (List.map_id text)
    simp [(whole character inside).1]
  have alone : Text.split ' ' text = [text] :=
    Text.split_eq_singleton fun inside => (whole ' ' inside).2 rfl
  rw [words, same, alone]
  simp [given]

/-- The names in a list are its own and those of what it holds. -/
theorem words_list (inner : String) :
    words ("List<" ++ inner ++ ">").toList = "List" :: words inner.toList := by
  have shape : ("List<" ++ inner ++ ">").toList =
      "List".toList ++ '<' :: (inner.toList ++ '>' :: []) := by
    simp
  have front : words "List".toList = ["List"] := by decide
  rw [shape, words_append (by decide), words_append (by decide), words_nil, front]
  simp

/-- An identifier is one name. -/
theorem words_identifier (valid : Identifier.isIdentifier word = true) :
    words word.toList = [word] := by
  have whole : words word.toList = [String.ofList word.toList] := by
    refine words_whole (by simpa using Identifier.ne_empty_of_isIdentifier valid) ?_
    intro character inside
    have part := Identifier.isPart_of_mem valid inside
    have marks : ['<', '>', '[', ']'].all (!Identifier.isPart ·) = true := by decide
    constructor
    · rw [Bool.eq_false_iff]
      intro mark
      have apart := List.all_eq_true.mp marks character (List.contains_iff_mem.mp mark)
      rw [part] at apart
      cases apart
    · rintro rfl
      exact absurd part (by decide)
  rwa [String.ofList_toList] at whole

end Words

section Names

/-- A qualified name ends with its simple name. -/
theorem simpleName_append (plain : '.' ∉ typeName.toList) :
    simpleName (package ++ "." ++ typeName) = typeName := by
  have shape : (package ++ "." ++ typeName).toList = package.toList ++ '.' :: typeName.toList := by
    simp
  rw [simpleName, Text.splitString, shape, Text.split_append, Text.split_eq_singleton plain]
  simp

/-- A name in front of which `java.lang` stands is of that package. -/
theorem eq_lang_of_qualifiedIn (same : qualifiedIn package word = "java.lang." ++ word) :
    package = "java.lang" := by
  unfold qualifiedIn at same
  split at same
  · have lengths := congrArg String.length same
    simp [String.length_append] at lengths
  · have fronts : package.toList ++ '.' :: word.toList =
        "java.lang".toList ++ '.' :: word.toList := by
      simpa [← String.toList_inj] using same
    exact String.toList_inj.mp (List.append_cancel_right fronts)

/-- A name that starts with a dot is not in the default package. -/
theorem ne_qualifiedIn_default : "" ++ "." ++ typeName ≠ qualifiedIn "" typeName := by
  intro same
  have lengths := congrArg String.length same
  simp [qualifiedIn, String.length_append] at lengths

/-- A type of the platform is imported under its simple name. -/
theorem simpleName_of_importedTypes (known : importedTypes.lookup word = some name) :
    simpleName name = word := by
  have each : ∀ entry ∈ importedTypes, simpleName entry.2 = entry.1 := by decide +kernel
  obtain ⟨before, after, whole, _⟩ := List.lookup_eq_some_iff.mp known
  exact each (word, name) (by simp [whole])

/-- The types of the platform have names that are not reserved. -/
theorem not_isReserved_of_platformTypes (known : word ∈ platformTypes) :
    Identifier.isReserved word = false := by
  have each : ∀ other ∈ platformTypes, Identifier.isReserved other = false := by decide +kernel
  exact each word known

/-- Where no two imports have the same simple name, each import gives its simple name a meaning. -/
theorem find?_imports {imports : List String}
    (apart : ∀ left ∈ imports, ∀ right ∈ imports, simpleName left = simpleName right → left = right)
    (imported : name ∈ imports) :
    imports.find? (simpleName · = simpleName name) = some name := by
  cases outcome : imports.find? (simpleName · = simpleName name) with
  | none =>
      have missed := List.find?_eq_none.mp outcome name imported
      simp at missed
  | some other =>
      have same : simpleName other = simpleName name := by simpa using List.find?_some outcome
      rw [apart other (List.mem_of_find?_eq_some outcome) name imported same]

/-- A model that is used by its simple name is imported, unless it is of the same package. -/
theorem modelText_of_ne {target : QualifiedName}
    (other : target.package base ≠ Package.qualify base model.space)
    (called : target.typeName ≠ model.typeName) :
    modelText base model target =
      ⟨target.typeName, [target.package base ++ "." ++ target.typeName]⟩ := by
  simp [modelText, other, called]

/-- A primitive imports what is not known without an import among the types that it is written
with. -/
theorem mem_primitiveImports_iff (boxed : Bool) {type : Primitive} : name ∈ primitiveImports type ↔
    ∃ word ∈ platformNames boxed (.primitive type), importedTypes.lookup word = some name := by
  have exact : (platformNames boxed (.primitive type)).filterMap (List.lookup · importedTypes) =
      primitiveImports type := by
    cases boxed <;> cases type <;> rfl
  rw [← exact, List.mem_filterMap]

/-- A type imports the types of the platform that it is written with, save for those of
`java.lang`, and what the model that it mentions asks for. -/
theorem mem_imports_typeText (typed : typeText base index model boxed type = .ok text) :
    name ∈ text.imports ↔
      (∃ word ∈ platformNames boxed type, importedTypes.lookup word = some name) ∨
        ∃ reference target, type.reference? = some reference ∧
          index.resolve reference model.space = .ok target ∧
          name ∈ (modelText base model target).imports := by
  induction type generalizing boxed text with
  | primitive type =>
      cases typed
      rw [mem_primitiveImports_iff boxed]
      simp [TypeRef.reference?]
  | model reference =>
      obtain ⟨target, resolved, rfl⟩ := typeText_model_eq_ok_iff.mp typed
      simp [TypeRef.reference?, resolved, platformNames]
  | list element hypothesis =>
      obtain ⟨inner, typedInner, rfl⟩ := typeText_list_eq_ok_iff.mp typed
      have known : importedTypes.lookup "List" = some listImport := rfl
      rw [List.mem_cons, hypothesis typedInner, platformNames, List.exists_mem_cons_iff, known,
        or_assoc, Option.some.injEq, eq_comm]
      rfl

end Names

/-- The simple names under which a class uses other models. -/
def renderedNames (base : String) (index : Index) (model : Model) : List String :=
  model.references.filterMap fun reference =>
    match index.resolve reference model.space with
    | .ok target =>
        if (modelText base model target).text = target.typeName then some target.typeName else none
    | .error _ => none

/-- No two simple names of a class clash: those of its imports, its own, those of the platform, and
those of the models that it uses. -/
structure Unambiguous (base : String) (index : Index) (model : Model) (imports : List String) :
    Prop where
  imports_apart : ∀ left ∈ imports, ∀ right ∈ imports,
    simpleName left = simpleName right → left = right
  class_apart : ∀ name ∈ imports, simpleName name ≠ model.typeName
  platform_apart : ∀ word ∈ platformNamesOf model,
    word ≠ model.typeName ∧ word ∉ renderedNames base index model

/-- The names of the types that are generated for the package of a model. -/
def neighbours (options : EmitOptions) (analysis : Analysis) (model : Model) : List String :=
  (analysis.kept.filter fun other =>
    Package.qualify options.basePackage other.2.space =
      Package.qualify options.basePackage model.space).map fun other => other.2.typeName

/-- Each name in the types of the fields means the type that it was written for. -/
def Faithful (options : EmitOptions) (analysis : Analysis) (model : Model) (fields : List Field) :
    Prop :=
  ∀ field ∈ fields, (words field.type.text.toList).map
      (meaning? (Package.qualify options.basePackage model.space) (imports fields)
        (neighbours options analysis model)) =
    (mentions options.basePackage analysis.index model false field.property.type).map
      fun mention => some mention.2

/-- The types of the platform that a class uses are called neither like the class nor like a
reference of it. -/
def PlatformApart (model : Model) : Prop :=
  ∀ word ∈ platformNamesOf model, word ≠ model.typeName ∧ word ∉ model.references

/-- No type of `java.lang` that a class uses is called like another type of its package. -/
def LangApart (options : EmitOptions) (analysis : Analysis) (model : Model) : Prop :=
  ∀ word ∈ platformNamesOf model, word ∈ langTypes →
    word ∈ neighbours options analysis model →
      Package.qualify options.basePackage model.space = "java.lang"

section Kept

variable {options : EmitOptions} {models : List Model} {entry : Numbered} {reference : String}
  {target : QualifiedName}

/-- A reference is resolved to a type of its name. -/
theorem typeName_of_resolve {space : List String}
    (resolved : index.resolve reference space = .ok target) : target.typeName = reference :=
  (Index.mem_candidates.mp (Index.resolve_eq_ok_iff.mp resolved).candidate).2

/-- What a kept model refers to has a valid name. -/
theorem isValid_of_resolve (loadable : ∀ model ∈ models, model.Loadable) {space : List String}
    (resolved : (Analysis.ofModels models).index.resolve reference space = .ok target) :
    Identifier.isIdentifier target.typeName = true ∧
      Identifier.isReserved target.typeName = false := by
  obtain ⟨other, kept, rfl⟩ := Analysis.exists_kept_of_resolve resolved
  exact (loadable_of_kept loadable kept).typeName_valid

/-- A kept model uses the models that it refers to by their simple names. -/
theorem text_modelText (kept : entry ∈ (Analysis.ofModels models).kept)
    (resolved : (Analysis.ofModels models).index.resolve reference entry.2.space = .ok target) :
    (modelText options.basePackage entry.2 target).text = target.typeName := by
  by_cases same : target.package options.basePackage =
      Package.qualify options.basePackage entry.2.space
  · simp [modelText, same]
  · have called : target.typeName ≠ entry.2.typeName := by
      intro called
      rw [eq_ofModel_of_resolve kept resolved called] at same
      exact same rfl
    rw [modelText_of_ne same called]

/-- A kept model is rendered with the simple names of all its references. -/
theorem mem_renderedNames (kept : entry ∈ (Analysis.ofModels models).kept) :
    word ∈ renderedNames options.basePackage (Analysis.ofModels models).index entry.2 ↔
      word ∈ entry.2.references := by
  rw [renderedNames, List.mem_filterMap]
  constructor
  · rintro ⟨reference, mentioned, chosen⟩
    cases resolved : (Analysis.ofModels models).index.resolve reference entry.2.space with
    | error failure => simp [resolved] at chosen
    | ok target =>
        simp only [resolved, text_modelText kept resolved, if_true, Option.some.injEq] at chosen
        rw [← chosen, typeName_of_resolve resolved]
        exact mentioned
  · intro mentioned
    obtain ⟨target, resolved⟩ := Analysis.resolve_of_kept kept mentioned
    refine ⟨word, mentioned, ?_⟩
    simp only [resolved, text_modelText kept resolved, if_true, typeName_of_resolve resolved]

variable {fields : List Field}

/-- Every property has its field. -/
theorem exists_field_of_mem (written : model.properties.mapM (field base index model) = .ok fields)
    {property : Property} (declared : property ∈ model.properties) :
    ∃ type, typeText base index model false property.type = .ok type ∧
      ⟨property, type⟩ ∈ fields := by
  have each := forall₂_of_mapM_eq_ok written
  obtain ⟨_, inside, made⟩ := exists_mem_of_forall₂ each.flip declared
  obtain ⟨type, typed, rfl⟩ := field_eq_ok_iff.mp made
  exact ⟨type, typed, inside⟩

/-- A class imports the types of the platform that it uses, save for those of `java.lang`, and the
models of other packages that it refers to. -/
theorem mem_imports (kept : entry ∈ (Analysis.ofModels models).kept)
    (written : entry.2.properties.mapM
      (field options.basePackage (Analysis.ofModels models).index entry.2) = .ok fields) :
    name ∈ imports fields ↔
      (∃ word ∈ platformNamesOf entry.2, importedTypes.lookup word = some name) ∨
        ∃ reference ∈ entry.2.references, ∃ target,
          (Analysis.ofModels models).index.resolve reference entry.2.space = .ok target ∧
          target.package options.basePackage ≠
            Package.qualify options.basePackage entry.2.space ∧
          name = target.package options.basePackage ++ "." ++ target.typeName := by
  rw [imports, Sorted.mem_ofList, List.mem_flatMap]
  constructor
  · rintro ⟨_, present, inside⟩
    obtain ⟨property, declared, made⟩ := (mem_iff_of_mapM_eq_ok written).mp present
    obtain ⟨type, typed, rfl⟩ := field_eq_ok_iff.mp made
    rcases (mem_imports_typeText typed).mp inside with ⟨word, used, known⟩ | asked
    · exact .inl ⟨word, List.mem_flatMap.mpr ⟨property, declared, used⟩, known⟩
    · obtain ⟨reference, target, mentioned, resolved, asked⟩ := asked
      obtain ⟨other, _, same⟩ := mem_imports_modelText_iff.mp asked
      exact .inr ⟨reference, List.mem_filterMap.mpr ⟨property, declared, mentioned⟩, target,
        resolved, other, same⟩
  · rintro (⟨word, used, known⟩ | ⟨reference, mentions, target, resolved, other, same⟩)
    · obtain ⟨property, declared, used⟩ := List.mem_flatMap.mp used
      obtain ⟨type, typed, present⟩ := exists_field_of_mem written declared
      exact ⟨_, present, (mem_imports_typeText typed).mpr (.inl ⟨word, used, known⟩)⟩
    · obtain ⟨property, declared, mentioned⟩ := List.mem_filterMap.mp mentions
      obtain ⟨type, typed, present⟩ := exists_field_of_mem written declared
      have called : target.typeName ≠ entry.2.typeName := by
        intro called
        rw [eq_ofModel_of_resolve kept resolved called] at other
        exact other rfl
      have asked := mem_imports_modelText_iff.mpr ⟨other, called, same⟩
      exact ⟨_, present, (mem_imports_typeText typed).mpr
        (.inr ⟨reference, target, mentioned, resolved, asked⟩)⟩

/-- What is imported, with its simple name: a type of the platform that the class uses, or a model
that it refers to. -/
theorem simpleName_of_mem_imports (loadable : ∀ model ∈ models, model.Loadable)
    (kept : entry ∈ (Analysis.ofModels models).kept)
    (written : entry.2.properties.mapM
      (field options.basePackage (Analysis.ofModels models).index entry.2) = .ok fields)
    (imported : name ∈ imports fields) :
    (simpleName name ∈ platformNamesOf entry.2 ∧
        importedTypes.lookup (simpleName name) = some name) ∨
      simpleName name ∈ entry.2.references ∧ ∃ target,
        (Analysis.ofModels models).index.resolve (simpleName name) entry.2.space = .ok target ∧
        target.package options.basePackage ≠
          Package.qualify options.basePackage entry.2.space ∧
        name = target.package options.basePackage ++ "." ++ target.typeName := by
  rcases (mem_imports kept written).mp imported with ⟨word, used, known⟩ | asked
  · have same := simpleName_of_importedTypes known
    exact .inl ⟨same ▸ used, same ▸ known⟩
  · obtain ⟨reference, mentioned, target, resolved, other, rfl⟩ := asked
    have valid := (isValid_of_resolve loadable resolved).1
    have plain := Identifier.not_mem_of_isIdentifier valid
      (show Identifier.isPart '.' = false by decide)
    have same : simpleName (target.package options.basePackage ++ "." ++ target.typeName) =
        reference := (simpleName_append plain).trans (typeName_of_resolve resolved)
    rw [same]
    exact .inr ⟨mentioned, target, resolved, other, rfl⟩

/-- The simple names of a class are unambiguous exactly when the types of the platform that it uses
are called neither like the class nor like a reference of it. -/
theorem unambiguous_iff (loadable : ∀ model ∈ models, model.Loadable)
    (kept : entry ∈ (Analysis.ofModels models).kept)
    (written : entry.2.properties.mapM
      (field options.basePackage (Analysis.ofModels models).index entry.2) = .ok fields) :
    Unambiguous options.basePackage (Analysis.ofModels models).index entry.2 (imports fields) ↔
      PlatformApart entry.2 := by
  constructor
  · intro unambiguous word used
    obtain ⟨own, others⟩ := unambiguous.platform_apart word used
    exact ⟨own, mt (mem_renderedNames kept).mpr others⟩
  · intro apart
    refine ⟨?_, ?_, ?_⟩
    · intro left leftImported right rightImported same
      have leftCases := simpleName_of_mem_imports loadable kept written leftImported
      have rightCases := simpleName_of_mem_imports loadable kept written rightImported
      rw [← same] at rightCases
      rcases leftCases with ⟨used, known⟩ | ⟨mentioned, target, resolved, _, rfl⟩
      · rcases rightCases with ⟨_, knownToo⟩ | ⟨mentioned, _⟩
        · exact Option.some.inj (known.symm.trans knownToo)
        · exact absurd mentioned (apart _ used).2
      · rcases rightCases with ⟨used, _⟩ | ⟨_, other, resolvedToo, _, rfl⟩
        · exact absurd mentioned (apart _ used).2
        · rw [Except.ok.inj (resolved.symm.trans resolvedToo)]
    · intro name imported called
      rcases simpleName_of_mem_imports loadable kept written imported with
        ⟨used, _⟩ | ⟨_, target, resolved, other, _⟩
      · exact (apart _ used).1 called
      · -- The model means itself by its own name, and does not import itself.
        have own := (typeName_of_resolve resolved).trans called
        rw [eq_ofModel_of_resolve kept resolved own] at other
        exact other rfl
    · intro word used
      exact ⟨(apart word used).1, mt (mem_renderedNames kept).mp (apart word used).2⟩

end Kept

section Mentions

variable {mention : String × String}

/-- A primitive is written with one name. -/
theorem words_primitive (boxed : Bool) (type : Primitive) :
    words (if boxed then boxedName type else plainName type).toList =
      [primitiveWord boxed type] := by
  cases boxed <;> cases type <;> decide +kernel

/-- A primitive is written as a keyword or with a type of the platform. -/
theorem primitive_cases (boxed : Bool) (type : Primitive) :
    (Identifier.isReserved (primitiveWord boxed type) = true ∧
        primitiveMeaning (primitiveWord boxed type) = primitiveWord boxed type) ∨
      primitiveWord boxed type ∈ platformNames boxed (.primitive type) ∧
        (primitiveWord boxed type ∈ langTypes ∧
            primitiveMeaning (primitiveWord boxed type) =
              "java.lang." ++ primitiveWord boxed type ∨
          importedTypes.lookup (primitiveWord boxed type) =
            some (primitiveMeaning (primitiveWord boxed type))) := by
  cases boxed <;> cases type <;> decide +kernel

/-- The names in the text of a type are those of what it mentions. -/
theorem words_typeText (typed : typeText base index model boxed type = .ok text)
    (simple : ∀ reference target, type.reference? = some reference →
      index.resolve reference model.space = .ok target →
      words (modelText base model target).text.toList = [(modelText base model target).text]) :
    words text.text.toList = (mentions base index model boxed type).map Prod.fst := by
  induction type generalizing boxed text with
  | primitive type =>
      cases typed
      exact words_primitive boxed type
  | model reference =>
      obtain ⟨target, resolved, rfl⟩ := typeText_model_eq_ok_iff.mp typed
      simp [mentions, resolved, simple reference target rfl resolved]
  | list element hypothesis =>
      obtain ⟨inner, typedInner, rfl⟩ := typeText_list_eq_ok_iff.mp typed
      rw [words_list, hypothesis typedInner simple]
      rfl

/-- What a type mentions is a keyword, a type of the platform, or a model. -/
theorem mention_cases (inside : mention ∈ mentions base index model boxed type) :
    (Identifier.isReserved mention.1 = true ∧ mention.2 = mention.1) ∨
      (mention.1 ∈ platformNames boxed type ∧
        (mention.1 ∈ langTypes ∧ mention.2 = "java.lang." ++ mention.1 ∨
          importedTypes.lookup mention.1 = some mention.2)) ∨
      ∃ reference target, type.reference? = some reference ∧
        index.resolve reference model.space = .ok target ∧
        mention = ((modelText base model target).text,
          qualifiedIn (target.package base) target.typeName) := by
  induction type generalizing boxed with
  | primitive type =>
      obtain rfl := List.mem_singleton.mp inside
      exact (primitive_cases boxed type).imp_right .inl
  | model reference =>
      cases resolved : index.resolve reference model.space with
      | error failure => simp [mentions, resolved] at inside
      | ok target =>
          simp only [mentions, resolved, List.mem_singleton] at inside
          exact .inr (.inr ⟨reference, target, rfl, resolved, inside⟩)
  | list element hypothesis =>
      rcases List.mem_cons.mp inside with rfl | inner
      · exact .inr (.inl ⟨List.mem_cons_self, .inr rfl⟩)
      · refine (hypothesis inner).imp_right (Or.imp_left fun known => ?_)
        exact ⟨List.mem_cons_of_mem _ known.1, known.2⟩

/-- The types of `java.lang` that a type is written with are mentioned as such. -/
theorem mem_mentions_of_langTypes (used : word ∈ platformNames boxed type)
    (known : word ∈ langTypes) :
    (word, "java.lang." ++ word) ∈ mentions base index model boxed type := by
  induction type generalizing boxed with
  | primitive type =>
      have same := List.mem_singleton.mp (List.mem_of_mem_filter used)
      subst same
      simp [mentions, primitiveMeaning, known]
  | model reference => cases used
  | list element hypothesis =>
      rcases List.mem_cons.mp used with rfl | inner
      · exact absurd known (by decide)
      · exact List.mem_cons_of_mem _ (hypothesis inner)

/-- A type that refers to a model mentions it, at any depth of lists. -/
theorem mem_mentions_of_resolve {reference : String} {target : QualifiedName}
    (mentioned : type.reference? = some reference)
    (resolved : index.resolve reference model.space = .ok target) :
    ((modelText base model target).text, qualifiedIn (target.package base) target.typeName) ∈
      mentions base index model boxed type := by
  induction type generalizing boxed with
  | primitive type => cases mentioned
  | model other =>
      cases mentioned
      simp [mentions, resolved]
  | list element hypothesis => exact List.mem_cons_of_mem _ (hypothesis mentioned)

end Mentions

section Meanings

variable {options : EmitOptions} {models : List Model} {entry : Numbered} {reference : String}
  {target : QualifiedName} {fields : List Field}

/-- Whether the types of the fields are faithful is said mention by mention. -/
theorem faithful_iff_mentions (loadable : ∀ model ∈ models, model.Loadable)
    (kept : entry ∈ (Analysis.ofModels models).kept)
    (written : entry.2.properties.mapM
      (field options.basePackage (Analysis.ofModels models).index entry.2) = .ok fields) :
    Faithful options (Analysis.ofModels models) entry.2 fields ↔
      ∀ property ∈ entry.2.properties, ∀ mention ∈ mentions options.basePackage
        (Analysis.ofModels models).index entry.2 false property.type,
        meaning? (Package.qualify options.basePackage entry.2.space) (imports fields)
          (neighbours options (Analysis.ofModels models) entry.2) mention.1 = some mention.2 := by
  have each : ∀ {property : Property} {type : TypeText},
      typeText options.basePackage (Analysis.ofModels models).index entry.2 false property.type =
        .ok type →
      words type.text.toList = (mentions options.basePackage (Analysis.ofModels models).index
        entry.2 false property.type).map Prod.fst := by
    intro property type typed
    refine words_typeText typed fun reference target _ resolved => ?_
    rw [text_modelText kept resolved]
    exact words_identifier (isValid_of_resolve loadable resolved).1
  constructor
  · intro faithful property declared
    obtain ⟨type, typed, present⟩ := exists_field_of_mem written declared
    have same := faithful _ present
    rw [each typed, List.map_map] at same
    exact List.map_inj_left.mp same
  · rintro exact _ present
    obtain ⟨property, declared, made⟩ := (mem_iff_of_mapM_eq_ok written).mp present
    obtain ⟨type, typed, rfl⟩ := field_eq_ok_iff.mp made
    rw [each typed, List.map_map]
    exact List.map_inj_left.mpr (exact property declared)

/-- A type of `java.lang` that a class uses is not imported, nor is anything else of its name. -/
theorem find?_imports_of_langTypes (loadable : ∀ model ∈ models, model.Loadable)
    (kept : entry ∈ (Analysis.ofModels models).kept)
    (written : entry.2.properties.mapM
      (field options.basePackage (Analysis.ofModels models).index entry.2) = .ok fields)
    (apart : PlatformApart entry.2) (used : word ∈ platformNamesOf entry.2)
    (known : word ∈ langTypes) :
    (imports fields).find? (simpleName · = word) = none := by
  have own : ∀ name ∈ langTypes, importedTypes.lookup name = none := by decide
  rw [List.find?_eq_none]
  intro name imported called
  obtain rfl : simpleName name = word := by simpa using called
  rcases simpleName_of_mem_imports loadable kept written imported with
    ⟨_, elsewhere⟩ | ⟨mentioned, _⟩
  · rw [own _ known] at elsewhere
    cases elsewhere
  · exact (apart _ used).2 mentioned

/-- A type of the platform that a class uses means this type. -/
theorem meaning?_of_platform (loadable : ∀ model ∈ models, model.Loadable)
    (kept : entry ∈ (Analysis.ofModels models).kept)
    (written : entry.2.properties.mapM
      (field options.basePackage (Analysis.ofModels models).index entry.2) = .ok fields)
    (apart : PlatformApart entry.2)
    (lang : LangApart options (Analysis.ofModels models) entry.2)
    (used : word ∈ platformNamesOf entry.2)
    (known : word ∈ langTypes ∧ name = "java.lang." ++ word ∨
      importedTypes.lookup word = some name) :
    meaning? (Package.qualify options.basePackage entry.2.space) (imports fields)
      (neighbours options (Analysis.ofModels models) entry.2) word = some name := by
  rcases known with ⟨known, rfl⟩ | known
  · have free := not_isReserved_of_platformTypes (List.mem_append_left _ known)
    have missed := find?_imports_of_langTypes loadable kept written apart used known
    by_cases near : word ∈ neighbours options (Analysis.ofModels models) entry.2
    · have same : qualifiedIn "java.lang" word = "java.lang." ++ word := rfl
      simp [meaning?, free, missed, near, lang word used known near, same]
    · simp [meaning?, free, missed, near, known]
  · have listed : word ∈ importedTypes.map Prod.fst := by
      obtain ⟨before, after, whole, _⟩ := List.lookup_eq_some_iff.mp known
      simp [whole]
    have free := not_isReserved_of_platformTypes (List.mem_append_right _ listed)
    have imported := (mem_imports kept written).mpr (.inl ⟨word, used, known⟩)
    have found := find?_imports
      ((unambiguous_iff loadable kept written).mpr apart).imports_apart imported
    rw [simpleName_of_importedTypes known] at found
    simp [meaning?, free, found]

/-- A model of the same package that a class refers to is meant by its simple name. -/
theorem meaning?_of_near (loadable : ∀ model ∈ models, model.Loadable)
    (kept : entry ∈ (Analysis.ofModels models).kept)
    (written : entry.2.properties.mapM
      (field options.basePackage (Analysis.ofModels models).index entry.2) = .ok fields)
    (apart : PlatformApart entry.2) (mentioned : reference ∈ entry.2.references)
    (resolved : (Analysis.ofModels models).index.resolve reference entry.2.space = .ok target)
    (near : target.package options.basePackage =
      Package.qualify options.basePackage entry.2.space) :
    meaning? (Package.qualify options.basePackage entry.2.space) (imports fields)
        (neighbours options (Analysis.ofModels models) entry.2) target.typeName =
      some (qualifiedIn (target.package options.basePackage) target.typeName) := by
  have free := (isValid_of_resolve loadable resolved).2
  have missed : (imports fields).find? (simpleName · = target.typeName) = none := by
    rw [List.find?_eq_none]
    intro name imported called
    replace called : simpleName name = reference := by
      rw [← typeName_of_resolve resolved]
      simpa using called
    rcases simpleName_of_mem_imports loadable kept written imported with
      ⟨used, _⟩ | ⟨_, other, resolvedToo, far, _⟩
    · exact (apart _ used).2 (called ▸ mentioned)
    · rw [called, resolved] at resolvedToo
      exact far (Except.ok.inj resolvedToo ▸ near)
  have present : target.typeName ∈ neighbours options (Analysis.ofModels models) entry.2 := by
    obtain ⟨other, keptToo, rfl⟩ := Analysis.exists_kept_of_resolve resolved
    refine List.mem_map.mpr ⟨other, List.mem_filter.mpr ⟨keptToo, ?_⟩, rfl⟩
    exact decide_eq_true near
  simp [meaning?, free, missed, present, near]

/-- A model of another package that a class refers to is meant by its simple name under the name
of its import. -/
theorem meaning?_of_far (loadable : ∀ model ∈ models, model.Loadable)
    (kept : entry ∈ (Analysis.ofModels models).kept)
    (written : entry.2.properties.mapM
      (field options.basePackage (Analysis.ofModels models).index entry.2) = .ok fields)
    (apart : PlatformApart entry.2) (mentioned : reference ∈ entry.2.references)
    (resolved : (Analysis.ofModels models).index.resolve reference entry.2.space = .ok target)
    (far : target.package options.basePackage ≠
      Package.qualify options.basePackage entry.2.space) :
    meaning? (Package.qualify options.basePackage entry.2.space) (imports fields)
        (neighbours options (Analysis.ofModels models) entry.2) target.typeName =
      some (target.package options.basePackage ++ "." ++ target.typeName) := by
  obtain ⟨valid, free⟩ := isValid_of_resolve loadable resolved
  have imported := (mem_imports kept written).mpr
    (.inr ⟨reference, mentioned, target, resolved, far, rfl⟩)
  have found := find?_imports
    ((unambiguous_iff loadable kept written).mpr apart).imports_apart imported
  have plain := Identifier.not_mem_of_isIdentifier valid
    (show Identifier.isPart '.' = false by decide)
  rw [simpleName_append plain] at found
  simp [meaning?, free, found]

/-- Where no names clash, the types of the fields are faithful exactly when no type of `java.lang`
that the class uses is hidden by its package, and the class does not import from the default
package. -/
theorem faithful_iff (package : Identifier.isPackage options.basePackage = true)
    (loadable : ∀ model ∈ models, model.Loadable)
    (kept : entry ∈ (Analysis.ofModels models).kept)
    (written : entry.2.properties.mapM
      (field options.basePackage (Analysis.ofModels models).index entry.2) = .ok fields)
    (apart : PlatformApart entry.2) :
    Faithful options (Analysis.ofModels models) entry.2 fields ↔
      LangApart options (Analysis.ofModels models) entry.2 ∧
        ¬ RefersToRoot options (Analysis.ofModels models) entry.2 := by
  rw [faithful_iff_mentions loadable kept written, refersToRoot_iff package loadable kept]
  constructor
  · intro exact
    constructor
    · intro word used known near
      obtain ⟨property, declared, inside⟩ := List.mem_flatMap.mp used
      have meant := exact property declared _ (mem_mentions_of_langTypes inside known)
      have free := not_isReserved_of_platformTypes (List.mem_append_left _ known)
      have missed := find?_imports_of_langTypes loadable kept written apart used known
      simp only [meaning?, free, missed, List.contains_iff_mem.mpr near, Bool.false_eq_true,
        if_false, if_true, Option.some.injEq] at meant
      exact eq_lang_of_qualifiedIn meant
    · rintro ⟨own, reference, mentioned, target, resolved, default⟩
      obtain ⟨property, declared, refers⟩ := List.mem_filterMap.mp mentioned
      have meant := exact property declared _ (mem_mentions_of_resolve refers resolved)
      have far : target.package options.basePackage ≠
          Package.qualify options.basePackage entry.2.space := by
        rw [default]
        exact own.symm
      rw [text_modelText kept resolved,
        meaning?_of_far loadable kept written apart mentioned resolved far, default] at meant
      exact ne_qualifiedIn_default (Option.some.inj meant)
  · rintro ⟨lang, packaged⟩ property declared mention inside
    rcases mention_cases inside with
      ⟨reserved, same⟩ | ⟨used, known⟩ | ⟨reference, target, refers, resolved, rfl⟩
    · rw [same]
      exact if_pos reserved
    · exact meaning?_of_platform loadable kept written apart lang
        (List.mem_flatMap.mpr ⟨property, declared, used⟩) known
    · have mentioned : reference ∈ entry.2.references :=
        List.mem_filterMap.mpr ⟨property, declared, refers⟩
      rw [text_modelText kept resolved]
      by_cases near : target.package options.basePackage =
          Package.qualify options.basePackage entry.2.space
      · exact meaning?_of_near loadable kept written apart mentioned resolved near
      · rw [meaning?_of_far loadable kept written apart mentioned resolved near]
        have given : target.package options.basePackage ≠ "" := by
          intro default
          refine packaged ⟨fun own => near ?_, reference, mentioned, target, resolved, default⟩
          rw [default, own]
        simp [qualifiedIn, given]

end Meanings

/-- The simple names of a generated class are unambiguous exactly when the types of the platform
that it uses are called neither like the class nor like a reference of it. Each name in the types of
its fields means, besides, the type that it was written for exactly when no type of `java.lang` that
the class uses is hidden by its package, and the class does not import from the default package. -/
theorem simpleNames_unambiguous_iff (options : EmitOptions) (models : List Model)
    (package : Identifier.isPackage options.basePackage = true)
    (loadable : ∀ model ∈ models, model.Loadable) (entry : Numbered)
    (kept : entry ∈ (Analysis.ofModels models).kept) :
    ∃ unit fields, emit options (Analysis.ofModels models).index entry.2 = .ok unit ∧
      entry.2.properties.mapM
        (field options.basePackage (Analysis.ofModels models).index entry.2) = .ok fields ∧
      unit.source = sourceText options entry.2 fields ∧
      importLinesOf unit.source = importLinesOf (header entry.2.source) ++
        (imports fields).map (fun name => (importLine name).toList) ∧
      (Unambiguous options.basePackage (Analysis.ofModels models).index entry.2 (imports fields) ↔
        PlatformApart entry.2) ∧
      (Unambiguous options.basePackage (Analysis.ofModels models).index entry.2 (imports fields) ∧
          Faithful options (Analysis.ofModels models) entry.2 fields ↔
        PlatformApart entry.2 ∧ LangApart options (Analysis.ofModels models) entry.2 ∧
          ¬ RefersToRoot options (Analysis.ofModels models) entry.2) := by
  obtain ⟨unit, emitted⟩ := exists_emit_of_kept options kept
  obtain ⟨fields, written, lines⟩ := importLinesOf_emit package loadable kept emitted
  obtain ⟨others, writtenToo, whole⟩ := emit_eq_ok_iff.mp emitted
  obtain rfl := Except.ok.inj (written.symm.trans writtenToo)
  have names := unambiguous_iff loadable kept written
  refine ⟨unit, fields, emitted, written, congrArg SourceUnit.source whole, lines, names, ?_⟩
  rw [names]
  exact and_congr_right fun apart => faithful_iff package loadable kept written apart

/-- An order with the day on which it was placed, some notes and an item of another namespace. -/
def datedOrder : List Model :=
  [⟨"Item", none, [], [], ⟨"item.yaml"⟩⟩,
   ⟨"Order", none,
    [⟨"placed", .primitive .date, none⟩, ⟨"notes", .list (.primitive .string), none⟩,
     ⟨"items", .list (.model "Item"), none⟩], ["sales"], ⟨"sales/order.yaml"⟩⟩]

/-- The order and its item could have been loaded. -/
theorem loadable_datedOrder : ∀ model ∈ datedOrder, model.Loadable := by
  intro model inside
  simp only [datedOrder, List.mem_cons, List.not_mem_nil, or_false] at inside
  rcases inside with rfl | rfl
  · exact ⟨by decide +kernel, [], rfl⟩
  · exact ⟨by decide +kernel, ["sales"], by decide +kernel⟩

/-- The class of the dated order has no ambiguous names, so they mean what they were written for. -/
theorem datedOrder_unambiguous :
    (1, datedOrder[1]) ∈ (Analysis.ofModels datedOrder).kept ∧
      ∃ fields, datedOrder[1].properties.mapM
          (field "com.example" (Analysis.ofModels datedOrder).index datedOrder[1]) = .ok fields ∧
        Unambiguous "com.example" (Analysis.ofModels datedOrder).index datedOrder[1]
          (imports fields) ∧
        Faithful ⟨"com.example", []⟩ (Analysis.ofModels datedOrder) datedOrder[1] fields := by
  have kept : (1, datedOrder[1]) ∈ (Analysis.ofModels datedOrder).kept := by decide +kernel
  obtain ⟨_, fields, _, written, _, _, _, exactly⟩ :=
    simpleNames_unambiguous_iff ⟨"com.example", []⟩ datedOrder (by decide +kernel)
      loadable_datedOrder (1, datedOrder[1]) kept
  refine ⟨kept, fields, written, exactly.mpr ⟨?_, ?_, fun refers => ?_⟩⟩
  · unfold PlatformApart
    decide +kernel
  · unfold LangApart
    decide +kernel
  · exact absurd refers.base (by decide)

/-- A model that is called like the lists of its own properties. -/
def numberList : List Model :=
  [⟨"List", none, [⟨"items", .list (.primitive .int), none⟩], [], ⟨"list.yaml"⟩⟩]

/-- The list of numbers could have been loaded. -/
theorem loadable_numberList : ∀ model ∈ numberList, model.Loadable := by
  intro model inside
  obtain rfl := List.mem_singleton.mp inside
  exact ⟨by decide +kernel, [], rfl⟩

/-- A class `List` with a list among its fields imports another `List`. -/
theorem numberList_ambiguous :
    ¬ ∀ (options : EmitOptions) (models : List Model),
      Identifier.isPackage options.basePackage = true → (∀ model ∈ models, model.Loadable) →
      ∀ entry ∈ (Analysis.ofModels models).kept, ∀ unit fields,
        emit options (Analysis.ofModels models).index entry.2 = .ok unit →
        entry.2.properties.mapM
          (field options.basePackage (Analysis.ofModels models).index entry.2) = .ok fields →
        Unambiguous options.basePackage (Analysis.ofModels models).index entry.2
          (imports fields) := by
  intro unambiguous
  have kept : (0, numberList[0]) ∈ (Analysis.ofModels numberList).kept := by decide +kernel
  obtain ⟨unit, emitted⟩ := exists_emit_of_kept ⟨"com.example", []⟩ kept
  obtain ⟨fields, written, _⟩ := emit_eq_ok_iff.mp emitted
  have apart := (unambiguous_iff loadable_numberList kept written).mp
    (unambiguous _ numberList (by decide +kernel) loadable_numberList _ kept unit fields
      emitted written)
  have used : "List" ∈ platformNamesOf numberList[0] := by decide
  exact (apart "List" used).1 rfl

end SchemaBeans.Bean
