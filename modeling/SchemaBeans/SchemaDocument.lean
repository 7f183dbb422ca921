import SchemaBeans.Model
import SchemaBeans.Package
import SchemaBeans.Text.Expected
import SchemaBeans.Yaml.Node

/-!
# Schema documents

A schema document is a mapping with a type name, an optional description and
properties. Properties are a sequence of tables, or a mapping from names to type
texts or tables; their order is kept. Every other shape is an error, and the
first error of a document is the one that is reported.
-/

namespace SchemaBeans

open Yaml (Node Value)

/-- Why the shape of a document is wrong. -/
inductive ShapeError where
  /-- Something of another type than the expected one. -/
  | wrongType (found expected : String)
  | missingField (name : String)
  | repeatedField (name : String)
  | unknownField (name : String) (known : List String)
  | propertiesKind (found : String)
  | nameKind (found : String)
  | bodyKind (name found : String)
  /-- An error in a field of the document. -/
  | inField (path : String) (error : ShapeError)
  /-- An error in an item of the sequence of properties. -/
  | inItem (error : ShapeError)
  /-- An error in the table of a named property. -/
  | inProperty (name : String) (error : ShapeError)
  deriving DecidableEq, Repr

/-- The wording of a shape error. -/
def ShapeError.message : ShapeError → String
  | wrongType found expected => "invalid type: " ++ found ++ ", expected " ++ expected
  | missingField name => "missing field `" ++ name ++ "`"
  | repeatedField name => "duplicate field `" ++ name ++ "`"
  | unknownField name known => "unknown field `" ++ name ++ "`, " ++ Text.expectedNames known
  | propertiesKind found => "`properties` must be a sequence or a mapping, found " ++ found
  | nameKind found => "property names must be strings, found " ++ found
  | bodyKind name found =>
      "property `" ++ name ++ "` must map to a type string or a table, found " ++ found
  | inField path error => path ++ ": " ++ error.message
  | inItem error => "property: " ++ error.message
  | inProperty name error => "property `" ++ name ++ "`: " ++ error.message

/-- Why a text is no schema document. -/
inductive DocumentError where
  /-- The text is not one document that has a value. -/
  | malformed
  | shape (error : ShapeError)
  | invalidType (property : String) (error : TypeError)
  deriving DecidableEq, Repr

/-- The wording of a document error. Malformed markup has no wording of its own. -/
def DocumentError.message? : DocumentError → Option String
  | malformed => none
  | shape error => some error.message
  | invalidType property error => some ("property `" ++ property ++ "`: " ++ error.message)

namespace SchemaDocument

/-- The name of the markup of schema documents. -/
def format : String := "yaml"

/-- A property before its type is read. -/
structure DraftProperty where
  name : String
  type : String
  description : Option String
  deriving DecidableEq, Repr

/-- The fields of a property's table. -/
inductive TableField where
  | name
  | type
  | description
  deriving DecidableEq, Repr

/-- The name of a field. -/
def TableField.text : TableField → String
  | name => "name"
  | type => "type"
  | description => "description"

/-- The fields of a property's table as far as they were read. -/
structure Table where
  name : Option String
  type : Option String
  description : Option (Option String)
  deriving DecidableEq, Repr

/-- A table without fields. -/
def Table.empty : Table := ⟨none, none, none⟩

/-- The text of a value that must be text. -/
def stringOf (value : Value) : Except ShapeError String :=
  match value.untagged with
  | .string text => .ok text
  | other => .error (.wrongType other.shown "a string")

/-- The text of a value that may be null instead. -/
def optionalStringOf (value : Value) : Except ShapeError (Option String) :=
  match value with
  | .null => .ok none
  | other => (stringOf other).map some

/-- The field that a key names. -/
def fieldOf (known : List TableField) (key : Value) : Except ShapeError TableField :=
  match key.untagged with
  | .string text =>
      match known.find? fun field => field.text = text with
      | some field => .ok field
      | none => .error (.unknownField text (known.map TableField.text))
  | other => .error (.wrongType other.shown "field identifier")

/-- A table with one more entry. -/
def Table.add (known : List TableField) (table : Table) (entry : Value × Value) :
    Except ShapeError Table := do
  match ← fieldOf known entry.1 with
  | .name =>
      if table.name.isSome then throw (.repeatedField "name")
      return { table with name := some (← stringOf entry.2) }
  | .type =>
      if table.type.isSome then throw (.repeatedField "type")
      return { table with type := some (← stringOf entry.2) }
  | .description =>
      if table.description.isSome then throw (.repeatedField "description")
      return { table with description := some (← optionalStringOf entry.2) }

/-- The table of a value; null is the empty table. -/
def tableOf (known : List TableField) (expected : String) (value : Value) :
    Except ShapeError Table :=
  match value.untagged with
  | .null => .ok .empty
  | .mapping entries => entries.foldlM (Table.add known) .empty
  | other => .error (.wrongType other.shown expected)

/-- A field that a table must have. -/
def required (field : TableField) : Option String → Except ShapeError String
  | some text => .ok text
  | none => .error (.missingField field.text)

/-- The property of an item of a sequence. -/
def propertyOfItem (item : Value) : Except ShapeError DraftProperty := do
  let table ← tableOf [.name, .type, .description] "struct RawProperty" item
  let name ← required .name table.name
  let type ← required .type table.type
  return ⟨name, type, table.description.join⟩

/-- The property of an entry of a mapping. -/
def propertyOfEntry (entry : Value × Value) : Except ShapeError DraftProperty :=
  match entry with
  | (.string name, .string type) => .ok ⟨name, type, none⟩
  | (.string name, .mapping entries) =>
      ((do
        let table ← tableOf [.type, .description] "struct RawPropertyBody" (.mapping entries)
        let type ← required .type table.type
        return ⟨name, type, table.description.join⟩ :
          Except ShapeError DraftProperty)).mapError (.inProperty name)
  | (.string name, other) => .error (.bodyKind name other.kind)
  | (other, _) => .error (.nameKind other.kind)

/-- The properties of a document. -/
def propertiesOf : Option Value → Except ShapeError (List DraftProperty)
  | none => .ok []
  | some .null => .ok []
  | some (.sequence items) =>
      items.mapM fun item => (propertyOfItem item).mapError .inItem
  | some (.mapping entries) => entries.mapM propertyOfEntry
  | some other => .error (.propertiesKind other.kind)

/-- The fields of a document as far as they were read. -/
structure Fields where
  typeName : Option String
  description : Option (Option String)
  properties : Option (Option Value)
  deriving Repr

/-- A document without fields. -/
def Fields.empty : Fields := ⟨none, none, none⟩

/-- The keys of a document that are known. -/
def knownKeys : List String := ["name", "typeName", "type_name", "description", "properties"]

/-- How a node is shown where another type was expected. -/
def shownNode : Node → Except DocumentError String
  | .scalar tag text plain _ =>
      match Node.scalarValue? tag text plain with
      | some value => .ok value.shown
      | none => .error .malformed
  | .sequence _ _ => .ok "sequence"
  | .mapping _ _ => .ok "map"

/-- The error of a node that has another type than the expected one. -/
def wrongNode {α : Type} (node : Node) (expected : String) : Except DocumentError α :=
  match shownNode node with
  | .ok found => .error (.shape (.wrongType found expected))
  | .error error => .error error

/-- The text of a key: any scalar's text. -/
def keyOf (key : Node) : Except DocumentError String :=
  match key with
  | .scalar _ text _ _ => .ok text
  | other => wrongNode other "field identifier"

/-- How a key is shown in front of an error in its value. -/
def keyPath : Node → String
  | .scalar _ text _ false => text
  | _ => "?"

/-- The text of a field: any scalar's text. -/
def fieldText (key value : Node) : Except DocumentError String :=
  match value with
  | .scalar _ text _ _ => .ok text
  | other =>
      match wrongNode other "a string" with
      | .error (.shape error) => .error (.shape (.inField (keyPath key) error))
      | outcome => outcome

/-- Whether an optional field is given. An unquoted null or nothing means that it is not; under the
tag of null the text must be a null. -/
def isGiven (value : Node) : Except DocumentError Bool :=
  match value with
  | .scalar _ _ false _ => .ok true
  | .scalar (some .null) text true _ =>
      if Value.isNullText text then .ok false else .error .malformed
  | .scalar (some _) _ true _ => .ok true
  | .scalar none text true _ => .ok (!text.isEmpty && !Value.isNullText text)
  | _ => .ok true

/-- The fields of a document with one more entry. -/
def Fields.add (fields : Fields) (entry : Node × Node) : Except DocumentError Fields := do
  let key ← keyOf entry.1
  if key = "typeName" || key = "type_name" || key = "name" then
    if fields.typeName.isSome then throw (.shape (.repeatedField "typeName"))
    return { fields with typeName := some (← fieldText entry.1 entry.2) }
  else if key = "description" then
    if fields.description.isSome then throw (.shape (.repeatedField "description"))
    if ← isGiven entry.2 then
      return { fields with description := some (some (← fieldText entry.1 entry.2)) }
    else return { fields with description := some none }
  else if key = "properties" then
    if fields.properties.isSome then throw (.shape (.repeatedField "properties"))
    if ← isGiven entry.2 then
      match entry.2.value? with
      | some value => return { fields with properties := some (some value) }
      | none => throw .malformed
    else return { fields with properties := some none }
  else throw (.shape (.unknownField key knownKeys))

/-- The fields of a document; nothing at all is a document without fields. -/
def fieldsOf : Option Node → Except DocumentError Fields
  | none => .ok .empty
  | some (.mapping _ entries) => entries.foldlM Fields.add .empty
  | some (.scalar tag text plain aliased) =>
      if plain && text.isEmpty then .ok .empty
      else wrongNode (.scalar tag text plain aliased) "struct RawModel"
  | some other => wrongNode other "struct RawModel"

/-- A document before its types are read. -/
structure Draft where
  typeName : String
  description : Option String
  properties : List DraftProperty
  deriving DecidableEq, Repr

/-- The shape of a document. -/
def draftOf (node : Option Node) : Except DocumentError Draft := do
  let fields ← fieldsOf node
  match fields.typeName with
  | none => throw (.shape (.missingField "typeName"))
  | some typeName =>
      match propertiesOf fields.properties.join with
      | .ok properties => return ⟨typeName, fields.description.join, properties⟩
      | .error error => throw (.shape error)

/-- The property of a drafted property. -/
def propertyOf (draft : DraftProperty) : Except DocumentError Property :=
  match TypeRef.parse draft.type with
  | .ok type => .ok ⟨draft.name, type, draft.description⟩
  | .error error => .error (.invalidType draft.name error)

/-- The model of a document, placed by its schema file. -/
def modelOf (file : SchemaFile) (draft : Draft) : Except DocumentError Model :=
  (draft.properties.mapM propertyOf).map fun properties =>
    { typeName := draft.typeName
      description := draft.description
      properties
      space := Package.namespaceOf file.directories
      source := file.relative }

/-- Whether a text has a value, whatever its shape. -/
def hasValue : Option Node → Bool
  | none => true
  | some node => node.value?.isSome

/-- Reads a schema document. A wrong shape is reported only for a text that has a value. -/
def parse (file : SchemaFile) (text : String) : Except DocumentError Model :=
  match Node.ofText? text with
  | none => .error .malformed
  | some node =>
      match (draftOf node).bind (modelOf file) with
      | .error (.shape error) => .error (if hasValue node then .shape error else .malformed)
      | outcome => outcome

end SchemaDocument

end SchemaBeans
