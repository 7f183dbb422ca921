import SchemaBeans.Proofs.Tables
import SchemaBeans.Proofs.Traversal

/-!
# The two forms of properties

The properties of a document are a sequence of tables, or a mapping from names to
tables or types. Documents that list the same properties in the two forms are read
as the same model, or are refused for the same first type that is none.
-/

namespace SchemaBeans.SchemaDocument

open Yaml (Node Value)

/-- The text that a property has for a field. Only the description can be missing. -/
def DraftProperty.text? (draft : DraftProperty) : TableField → Option String
  | .name => some draft.name
  | .type => some draft.type
  | .description => draft.description

/-- What a table with the given fields holds of a property. -/
def DraftProperty.content (draft : DraftProperty) (known : List TableField) (field : TableField) :
    Option Value :=
  if field ∈ known then (draft.text? field).map .string else none

/-- A property as an item of a sequence. -/
inductive IsItem (draft : DraftProperty) : Value → Prop where
  | table {values}
      (holds : Tabulates TableField.keys (draft.content [.name, .type, .description]) values) :
      IsItem draft (.mapping values)

/-- A property as the content of an entry: a table, or its type alone if it has no description. -/
inductive IsBody (draft : DraftProperty) : Value → Prop where
  | table {values} (holds : Tabulates TableField.keys (draft.content [.type, .description]) values) :
      IsBody draft (.mapping values)
  | short (bare : draft.description = none) : IsBody draft (.string draft.type)

/-- The forms of properties. -/
inductive Form where
  | sequence
  | mapping

/-- A value that lists properties in a form. The names in a mapping are different because a mapping
that repeats a key has no value. -/
inductive Form.Lists (drafts : List DraftProperty) : Form → Value → Prop where
  | sequence {items} (each : List.Forall₂ IsItem drafts items) :
      Lists drafts .sequence (.sequence items)
  | mapping {entries}
      (each : List.Forall₂ (fun draft entry =>
        entry.1 = .string draft.name ∧ IsBody draft entry.2) drafts entries) :
      Lists drafts .mapping (.mapping entries)

/-- What a document holds. -/
def Draft.content (draft : Draft) (properties : Value) : Part → Option Value
  | .typeName => some (.string draft.typeName)
  | .description => draft.description.map .string
  | .properties => some properties

/-- The value of a text that holds one document. -/
def valueOf? (text : String) : Option Value := (Node.ofText? text).join.bind Node.value?

/-- A text that loads as a document with its properties in a form. -/
def Loads (form : Form) (draft : Draft) (text : String) : Prop :=
  ∃ values properties, valueOf? text = some (.mapping values) ∧
    Tabulates Part.keys (draft.content properties) values ∧ form.Lists draft.properties properties

/-- What a document is read as: a model with its properties in their order, or an error for the
first property whose type is none. -/
inductive Reads (file : SchemaFile) (draft : Draft) : Except DocumentError Model → Prop where
  | model {properties}
      (each : List.Forall₂ (fun drafted property => property.name = drafted.name ∧
        TypeRef.parse drafted.type = .ok property.type ∧
        property.description = drafted.description) draft.properties properties) :
      Reads file draft (.ok {
        typeName := draft.typeName
        description := draft.description
        properties
        space := Package.namespaceOf file.directories
        source := file.relative })
  | invalidType {before wrong after error} (split : draft.properties = before ++ wrong :: after)
      (fine : ∀ earlier ∈ before, ∃ type, TypeRef.parse earlier.type = .ok type)
      (refused : TypeRef.parse wrong.type = .error error) :
      Reads file draft (.error (.invalidType wrong.name error))

variable {file : SchemaFile} {form : Form} {draft : Draft} {text : String}

section Properties

variable {property : DraftProperty} {value : Value}

/-- A table of a property is read as the texts of the property. -/
theorem exists_tableOf_content {known : List TableField} {values : List (Value × Value)}
    (expected : String) (typed : .type ∈ known) (described : .description ∈ known)
    (holds : Tabulates TableField.keys (property.content known) values) :
    ∃ table, tableOf known expected (.mapping values) = .ok table ∧
      (.name ∈ known → table.name = some property.name) ∧ table.type = some property.type ∧
      table.description.join = property.description := by
  have fit (field value) (has : property.content known field = some value) :
      field ∈ known ∧ IsText value := by
    rw [DraftProperty.content] at has
    split at has
    · next inside =>
        obtain ⟨text, _, rfl⟩ := Option.map_eq_some_iff.mp has
        exact ⟨inside, text, rfl⟩
    · cases has
  obtain ⟨table, read, held⟩ := exists_tableOf expected fit holds
  refine ⟨table, read, fun named => ?_, ?_, ?_⟩
  · simpa [Table.value?, DraftProperty.content, DraftProperty.text?, named] using held .name
  · simpa [Table.value?, DraftProperty.content, DraftProperty.text?, typed] using held .type
  · refine join_eq_of_descriptionValue? ?_
    simpa [Table.value?, DraftProperty.content, DraftProperty.text?, described] using
      held .description

/-- An item of the sequence form is read as its property. -/
theorem propertyOfItem_eq_ok (item : IsItem property value) :
    propertyOfItem value = .ok property := by
  cases item with
  | table holds =>
      obtain ⟨table, read, named, typed, described⟩ :=
        exists_tableOf_content "struct RawProperty" (by decide) (by decide) holds
      unfold propertyOfItem
      rw [read]
      simp [named, typed, described, required, bind, Except.bind, pure, Except.pure]

/-- An entry of the mapping form is read as its property. -/
theorem propertyOfEntry_eq_ok (body : IsBody property value) :
    propertyOfEntry (.string property.name, value) = .ok property := by
  cases body with
  | table holds =>
      obtain ⟨table, read, _, typed, described⟩ :=
        exists_tableOf_content "struct RawPropertyBody" (by decide) (by decide) holds
      unfold propertyOfEntry
      dsimp only
      rw [read]
      simp [typed, described, required, Except.mapError, bind, Except.bind, pure, Except.pure]
  | short bare =>
      unfold propertyOfEntry
      rw [← bare]

/-- Properties in either form are not null, not even those of a model without any. -/
theorem Form.Lists.ne_null {properties : Value} {drafts : List DraftProperty}
    (lists : form.Lists drafts properties) : properties ≠ .null := by
  cases lists <;> simp

/-- Properties in a form are read one by one, in their order. -/
theorem Form.Lists.propertiesOf_eq_ok {properties : Value} {drafts : List DraftProperty}
    (lists : form.Lists drafts properties) : propertiesOf (some properties) = .ok drafts := by
  cases lists with
  | sequence each =>
      refine mapM_eq_ok_of_forall₂ (each.flip.imp fun item draft is => ?_)
      rw [propertyOfItem_eq_ok is]
      rfl
  | mapping each =>
      refine mapM_eq_ok_of_forall₂ (each.flip.imp ?_)
      rintro ⟨name, body⟩ draft ⟨rfl, is⟩
      exact propertyOfEntry_eq_ok is

end Properties

/-- A document that holds a draft is read as that draft. -/
theorem draftOf_eq_ok {node : Node} {values : List (Value × Value)} {properties : Value}
    (read : node.value? = some (.mapping values))
    (holds : Tabulates Part.keys (draft.content properties) values)
    (lists : form.Lists draft.properties properties) : draftOf (some node) = .ok draft := by
  have fit (part value) (has : draft.content properties part = some value) : part.Fits value := by
    cases part with
    | typeName => exact ⟨draft.typeName, (Option.some.inj has).symm⟩
    | description =>
        obtain ⟨text, _, rfl⟩ := Option.map_eq_some_iff.mp has
        exact ⟨text, rfl⟩
    | properties => exact Option.some.inj has ▸ lists.ne_null
  obtain ⟨fields, found, held⟩ := exists_fieldsOf read fit holds
  have named : fields.typeName = some draft.typeName := by
    simpa [Fields.value?, Draft.content] using held .typeName
  have described : fields.description.join = draft.description :=
    join_eq_of_descriptionValue? (held .description)
  have listed : fields.properties.join = some properties := by
    obtain ⟨given, own, same⟩ := Option.map_eq_some_iff.mp (held .properties)
    cases given with
    | none => exact absurd same.symm lists.ne_null
    | some value =>
        rw [own, ← same]
        rfl
  unfold draftOf
  rw [found]
  simp [named, described, listed, lists.propertiesOf_eq_ok, bind, Except.bind, pure, Except.pure]

/-- The types of a draft are read one by one, up to the first that is none. -/
theorem reads_modelOf (file : SchemaFile) (draft : Draft) : Reads file draft (modelOf file draft) := by
  unfold modelOf
  cases read : draft.properties.mapM propertyOf with
  | ok properties =>
      refine .model ((forall₂_of_mapM_eq_ok read).imp fun drafted property own => ?_)
      unfold propertyOf at own
      split at own <;> cases own
      exact ⟨rfl, by assumption, rfl⟩
  | error failure =>
      obtain ⟨before, wrong, after, split, fine, refused⟩ := exists_append_of_mapM_eq_error read
      unfold propertyOf at refused
      split at refused <;> cases refused
      refine .invalidType split (fun earlier inside => ?_) (by assumption)
      obtain ⟨property, own⟩ := fine earlier inside
      unfold propertyOf at own
      split at own
      · exact ⟨_, by assumption⟩
      · cases own

/-- A text that is read as a draft is read by the types of the draft. -/
theorem parse_of_draftOf {node : Option Node} (found : Node.ofText? text = some node)
    (read : draftOf node = .ok draft) : parse file text = modelOf file draft := by
  unfold parse
  rw [found]
  dsimp only
  rw [read, Except.bind]
  -- The types of a draft give no error of the shape, which would be looked at once more.
  have typed := reads_modelOf file draft
  generalize modelOf file draft = result at typed ⊢
  cases typed <;> rfl

/-- A text that loads as a document is read by its types. -/
theorem parse_eq_modelOf (loads : Loads form draft text) : parse file text = modelOf file draft := by
  obtain ⟨values, properties, loaded, holds, lists⟩ := loads
  obtain ⟨node, found, read⟩ := Option.bind_eq_some_iff.mp loaded
  exact parse_of_draftOf (Option.join_eq_some_iff.mp found) (draftOf_eq_ok read holds lists)

/-- Documents that list the same properties in the two forms are read alike: as the model of those
properties, in their order, or with the error for the first type that is none. -/
theorem parse_forms_eq {sequenceText mappingText : String}
    (sequence : Loads .sequence draft sequenceText) (mapping : Loads .mapping draft mappingText) :
    parse file sequenceText = parse file mappingText ∧
      Reads file draft (parse file mappingText) := by
  rw [parse_eq_modelOf sequence, parse_eq_modelOf mapping]
  exact ⟨rfl, reads_modelOf file draft⟩

/-- An item with two properties, one of them with a description. -/
def labelledItem : Draft where
  typeName := "Item"
  description := none
  properties := [⟨"sku", "string", none⟩, ⟨"tags", "list<string>", some "Labels"⟩]

/-- The item with a sequence of properties. -/
def labelledItemSequence : String :=
  "typeName: Item\n" ++
  "properties:\n" ++
  "- \x7bname: sku, type: string\x7d\n" ++
  "- \x7btype: list<string>, description: Labels, name: tags\x7d\n"

/-- The item with a mapping of properties, where one has nothing but its type. -/
def labelledItemMapping : String :=
  "properties:\n" ++
  "  sku: string\n" ++
  "  tags: \x7btype: list<string>, description: Labels\x7d\n" ++
  "name: Item\n"

/-- The value of the labelled item in sequence form. -/
theorem valueOf?_labelledItemSequence : valueOf? labelledItemSequence = some (.mapping
    [(.string "typeName", .string "Item"),
      (.string "properties", .sequence
        [.mapping [(.string "name", .string "sku"), (.string "type", .string "string")],
          .mapping [(.string "type", .string "list<string>"),
            (.string "description", .string "Labels"), (.string "name", .string "tags")]])]) := by
  decide +kernel

/-- The value of the labelled item in mapping form. -/
theorem valueOf?_labelledItemMapping : valueOf? labelledItemMapping = some (.mapping
    [(.string "properties", .mapping
        [(.string "sku", .string "string"),
          (.string "tags", .mapping [(.string "type", .string "list<string>"),
            (.string "description", .string "Labels")])]),
      (.string "name", .string "Item")]) := by
  decide +kernel

/-- The labelled item is loaded from its sequence form. -/
theorem loads_labelledItemSequence : Loads .sequence labelledItem labelledItemSequence := by
  have sku : IsItem ⟨"sku", "string", none⟩
      (.mapping [(.string "name", .string "sku"), (.string "type", .string "string")]) :=
    .table ⟨[.name, .type], by decide, by rintro (_ | _ | _) <;> decide,
      .cons ⟨⟨_, by decide, rfl⟩, rfl⟩ (.cons ⟨⟨_, by decide, rfl⟩, rfl⟩ .nil)⟩
  have tags : IsItem ⟨"tags", "list<string>", some "Labels"⟩
      (.mapping [(.string "type", .string "list<string>"),
        (.string "description", .string "Labels"), (.string "name", .string "tags")]) :=
    .table ⟨[.type, .description, .name], by decide, by rintro (_ | _ | _) <;> decide,
      .cons ⟨⟨_, by decide, rfl⟩, rfl⟩ (.cons ⟨⟨_, by decide, rfl⟩, rfl⟩
        (.cons ⟨⟨_, by decide, rfl⟩, rfl⟩ .nil))⟩
  exact ⟨_, _, valueOf?_labelledItemSequence,
    ⟨[.typeName, .properties], by decide, by rintro (_ | _ | _) <;> decide,
      .cons ⟨⟨_, by decide, rfl⟩, rfl⟩ (.cons ⟨⟨_, by decide, rfl⟩, rfl⟩ .nil)⟩,
    .sequence (.cons sku (.cons tags .nil))⟩

/-- The labelled item is loaded from its mapping form. -/
theorem loads_labelledItemMapping : Loads .mapping labelledItem labelledItemMapping := by
  have tags : IsBody ⟨"tags", "list<string>", some "Labels"⟩
      (.mapping [(.string "type", .string "list<string>"),
        (.string "description", .string "Labels")]) :=
    .table ⟨[.type, .description], by decide, by rintro (_ | _ | _) <;> decide,
      .cons ⟨⟨_, by decide, rfl⟩, rfl⟩ (.cons ⟨⟨_, by decide, rfl⟩, rfl⟩ .nil)⟩
  exact ⟨_, _, valueOf?_labelledItemMapping,
    ⟨[.properties, .typeName], by decide, by rintro (_ | _ | _) <;> decide,
      .cons ⟨⟨_, by decide, rfl⟩, rfl⟩ (.cons ⟨⟨_, by decide, rfl⟩, rfl⟩ .nil)⟩,
    .mapping (.cons ⟨rfl, .short rfl⟩ (.cons ⟨rfl, tags⟩ .nil))⟩

/-- The schema file of the item. -/
def labelledItemFile : SchemaFile := ⟨⟨"s/shop/item.yaml"⟩, ⟨"shop/item.yaml"⟩⟩

/-- Both forms of the labelled item are read alike, although their fields stand in different
orders. -/
theorem labelledItem_forms_eq :
    Loads .sequence labelledItem labelledItemSequence ∧
      Loads .mapping labelledItem labelledItemMapping ∧
      parse labelledItemFile labelledItemSequence = parse labelledItemFile labelledItemMapping ∧
      Reads labelledItemFile labelledItem (parse labelledItemFile labelledItemMapping) :=
  ⟨loads_labelledItemSequence, loads_labelledItemMapping,
    parse_forms_eq loads_labelledItemSequence loads_labelledItemMapping⟩

end SchemaBeans.SchemaDocument
