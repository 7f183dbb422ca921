import SchemaBeans.ModelJson
import SchemaBeans.Proofs.JsonTexts
import SchemaBeans.Proofs.Traversal

/-!
# Models and their JSON texts

A model is got back from its JSON value, and from the text of that value unless a
property has a type of lists nested too deep for the reader.
-/

namespace SchemaBeans

/-- How many lists a type is nested in. -/
def TypeRef.lists : TypeRef → Nat
  | primitive _ => 0
  | model _ => 0
  | list element => element.lists + 1

section Values

/-- A primitive is got back from its keyword. -/
theorem Primitive.ofCanonical?_keyword (type : Primitive) :
    Primitive.ofCanonical? type.keyword = some type := by
  cases type <;> rfl

/-- A type is got back from its JSON value. -/
theorem TypeRef.ofJson?_toJson (type : TypeRef) : TypeRef.ofJson? type.toJson = some type := by
  induction type with
  | primitive type => simp [TypeRef.toJson, TypeRef.ofJson?, Primitive.ofCanonical?_keyword]
  | model name => rfl
  | list element hypothesis => simp [TypeRef.toJson, TypeRef.ofJson?, hypothesis]

/-- A property is got back from its JSON value. -/
theorem Property.ofJson?_toJson (property : Property) :
    Property.ofJson? property.toJson = some property := by
  obtain ⟨name, type, description⟩ := property
  have typed := TypeRef.ofJson?_toJson type
  cases description <;>
    simp [Property.toJson, Property.ofJson?, descriptionMember, descriptionOf?, Json.member?,
      Json.text?, List.lookup_cons, typed]

/-- A model is got back from its JSON value. -/
theorem Model.ofJson?_toJson (model : Model) : Model.ofJson? model.toJson = some model := by
  obtain ⟨typeName, description, properties, space, source⟩ := model
  have listed : (properties.map Property.toJson).mapM Property.ofJson? = some properties :=
    mapM_map_eq_pure Property.ofJson?_toJson properties
  have spaced : (space.map Json.string).mapM Json.text? = some space := by
    refine mapM_map_eq_pure (fun text => ?_) space
    rfl
  cases description <;>
    simp [Model.toJson, Model.ofJson?, descriptionMember, descriptionOf?, Json.member?, Json.text?,
      Json.elements?, List.lookup_cons, listed, spaced]

end Values

section Texts

/-- A type is written with words alone. -/
theorem TypeRef.isWordy_toJson (type : TypeRef) : type.toJson.IsWordy := by
  induction type with
  | primitive type => exact ⟨trivial, trivial⟩
  | model name => exact ⟨trivial, trivial⟩
  | list element hypothesis => exact ⟨hypothesis, trivial⟩

/-- A type is nested one deeper than its lists. -/
theorem TypeRef.nesting_toJson (type : TypeRef) : type.toJson.nesting = type.lists + 1 := by
  induction type with
  | primitive type => rfl
  | model name => rfl
  | list element hypothesis =>
      calc (TypeRef.list element).toJson.nesting
          = max element.toJson.nesting 0 + 1 := rfl
        _ = element.lists + 1 + 1 := by rw [hypothesis, Nat.max_zero]

/-- A property is written with words alone. -/
theorem Property.isWordy_toJson (property : Property) : property.toJson.IsWordy := by
  obtain ⟨name, type, description⟩ := property
  cases description with
  | none => exact ⟨trivial, type.isWordy_toJson, trivial⟩
  | some text => exact ⟨trivial, type.isWordy_toJson, trivial, trivial⟩

/-- A property is nested one deeper than its type. -/
theorem Property.nesting_toJson (property : Property) :
    property.toJson.nesting = property.type.lists + 2 := by
  obtain ⟨name, type, description⟩ := property
  cases description with
  | none =>
      calc (Property.toJson ⟨name, type, none⟩).nesting
          = max 0 (max type.toJson.nesting 0) + 1 := rfl
        _ = type.lists + 2 := by rw [type.nesting_toJson, Nat.max_zero, Nat.zero_max]
  | some text =>
      calc (Property.toJson ⟨name, type, some text⟩).nesting
          = max 0 (max type.toJson.nesting (max 0 0)) + 1 := rfl
        _ = type.lists + 2 := by rw [type.nesting_toJson, Nat.max_self, Nat.max_zero, Nat.zero_max]

/-- A model is written with words alone. -/
theorem Model.isWordy_toJson (model : Model) : model.toJson.IsWordy := by
  obtain ⟨typeName, description, properties, space, source⟩ := model
  have listed : Json.AreWordy (properties.map Property.toJson) :=
    Json.areWordy_iff.mpr (List.forall_mem_map.mpr fun property _ => property.isWordy_toJson)
  have spaced : Json.AreWordy (space.map Json.string) :=
    Json.areWordy_iff.mpr (List.forall_mem_map.mpr fun _ _ => trivial)
  cases description with
  | none => exact ⟨trivial, listed, spaced, trivial, trivial⟩
  | some text => exact ⟨trivial, trivial, listed, spaced, trivial, trivial⟩

/-- The JSON value of a model is nested two levels deeper than that of its properties. -/
theorem Model.nesting_toJson (model : Model) :
    model.toJson.nesting = Json.elementsNesting (model.properties.map Property.toJson) + 2 := by
  obtain ⟨typeName, description, properties, space, source⟩ := model
  have spaced : Json.elementsNesting (space.map Json.string) = 0 :=
    Nat.le_zero.mp (Json.elementsNesting_le_iff.mpr
      (List.forall_mem_map.mpr fun _ _ => Nat.le_refl 0))
  cases description with
  | none =>
      calc (Model.toJson ⟨typeName, none, properties, space, source⟩).nesting
          = max 0 (max (Json.elementsNesting (properties.map Property.toJson) + 1)
              (max (Json.elementsNesting (space.map Json.string) + 1) (max 0 0))) + 1 := rfl
        _ = Json.elementsNesting (properties.map Property.toJson) + 2 := by
            rw [spaced]
            omega
  | some text =>
      calc (Model.toJson ⟨typeName, some text, properties, space, source⟩).nesting
          = max 0 (max 0 (max (Json.elementsNesting (properties.map Property.toJson) + 1)
              (max (Json.elementsNesting (space.map Json.string) + 1) (max 0 0)))) + 1 := rfl
        _ = Json.elementsNesting (properties.map Property.toJson) + 2 := by
            rw [spaced]
            omega

/-- The reader goes as deep as the JSON value of a model when no type is nested in more than 123
lists: four levels are taken by the model, the list of its properties, the property and what the
lists hold in the end. -/
theorem Model.nesting_le_iff {model : Model} :
    model.toJson.nesting ≤ Json.nestingLimit ↔
      ∀ property ∈ model.properties, property.type.lists ≤ 123 := by
  have inner : Json.elementsNesting (model.properties.map Property.toJson) ≤ 125 ↔
      ∀ property ∈ model.properties, property.type.lists ≤ 123 := by
    rw [Json.elementsNesting_le_iff, List.forall_mem_map]
    refine forall₂_congr fun property _ => ?_
    rw [property.nesting_toJson]
    omega
  rw [model.nesting_toJson, Json.nestingLimit, ← inner]
  omega

/-- The text of a model is read back as the model where the reader goes deep enough. -/
theorem Model.parse?_toJson (model : Model) :
    Model.parse? model.toJson.render =
      if model.toJson.nesting ≤ Json.nestingLimit then some model else none := by
  rw [Model.parse?, Json.parse?_render model.isWordy_toJson]
  by_cases fits : model.toJson.nesting ≤ Json.nestingLimit
  · rw [if_pos fits, if_pos fits, Option.bind_some, model.ofJson?_toJson]
  · rw [if_neg fits, if_neg fits, Option.bind_none]

/-- A model is got back from its JSON value, whatever its texts and types are, and from the text of
that value exactly when no type is nested in more than 123 lists. A text that is nested deeper is
refused; it is never read as another model. -/
theorem Model.read_back (model : Model) :
    Model.ofJson? model.toJson = some model ∧
      Model.parse? model.toJson.render =
        if ∀ property ∈ model.properties, property.type.lists ≤ 123 then some model else none := by
  refine ⟨model.ofJson?_toJson, ?_⟩
  rw [model.parse?_toJson, if_congr Model.nesting_le_iff rfl rfl]

/-- A string nested in so many lists. -/
def TypeRef.nested : Nat → TypeRef
  | 0 => primitive .string
  | depth + 1 => list (nested depth)

/-- Nested lists are as many as they were made of. -/
theorem TypeRef.lists_nested (depth : Nat) : (TypeRef.nested depth).lists = depth := by
  induction depth with
  | zero => rfl
  | succ depth hypothesis => rw [TypeRef.nested, TypeRef.lists, hypothesis]

/-- A model with a string nested in 124 lists has a text that is refused. -/
theorem Model.nested_refused :
    Model.parse? (Model.toJson ⟨"Item", none, [⟨"labels", .nested 124, none⟩], [],
      ⟨"item.yaml"⟩⟩).render = none := by
  rw [Model.parse?_toJson, if_neg]
  rw [Model.nesting_le_iff]
  intro within
  have bound := within _ List.mem_cons_self
  rw [TypeRef.lists_nested] at bound
  omega

end Texts

end SchemaBeans
