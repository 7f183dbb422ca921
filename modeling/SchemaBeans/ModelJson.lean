import SchemaBeans.Json.Reader
import SchemaBeans.Model

/-!
# Models as JSON

A model is written as an object with its fields in a fixed order. An absent
description has no member. A type is an object with a single member that tells
which kind of type it is.
-/

namespace SchemaBeans

/-- A type as JSON. -/
def TypeRef.toJson : TypeRef → Json
  | primitive type => .object [("primitive", .string type.keyword)]
  | model name => .object [("model", .string name)]
  | list element => .object [("list", element.toJson)]

/-- The member of an optional description. -/
def descriptionMember : Option String → List (String × Json)
  | some text => [("description", .string text)]
  | none => []

/-- A property as JSON. -/
def Property.toJson (property : Property) : Json :=
  .object ([("name", .string property.name), ("ty", property.type.toJson)] ++
    descriptionMember property.description)

/-- A model as JSON. -/
def Model.toJson (model : Model) : Json :=
  .object ([("type_name", .string model.typeName)] ++ descriptionMember model.description ++
    [("properties", .array (model.properties.map Property.toJson)),
     ("namespace", .array (model.space.map .string)),
     ("source", .string model.source.text)])

/-- The models of a run as one indented document. -/
def Model.renderAll (models : List Model) : String :=
  (Json.array (models.map Model.toJson)).renderIndented

/-- The primitive of a canonical keyword. -/
def Primitive.ofCanonical? (keyword : String) : Option Primitive :=
  Primitive.all.find? fun type => type.keyword = keyword

/-- Reads a type from JSON. -/
def TypeRef.ofJson? : Json → Option TypeRef
  | .object [("primitive", .string keyword)] =>
      (Primitive.ofCanonical? keyword).map .primitive
  | .object [("model", .string name)] => some (.model name)
  | .object [("list", element)] => (ofJson? element).map .list
  | _ => none

/-- Reads the description of an object; an absent or null member is no description. -/
def descriptionOf? (json : Json) : Option (Option String) :=
  match json.member? "description" with
  | none => some none
  | some .null => some none
  | some (.string text) => some (some text)
  | some _ => none

/-- Reads a property from JSON. -/
def Property.ofJson? (json : Json) : Option Property := do
  let name ← (← json.member? "name").text?
  let type ← TypeRef.ofJson? (← json.member? "ty")
  some ⟨name, type, ← descriptionOf? json⟩

/-- Reads a model from JSON. -/
def Model.ofJson? (json : Json) : Option Model := do
  let typeName ← (← json.member? "type_name").text?
  let description ← descriptionOf? json
  let properties ← (← (← json.member? "properties").elements?).mapM Property.ofJson?
  let space ← (← (← json.member? "namespace").elements?).mapM Json.text?
  let source ← (← json.member? "source").text?
  some ⟨typeName, description, properties, space, ⟨source⟩⟩

/-- Reads a model from the text of a JSON document. -/
def Model.parse? (text : String) : Option Model := (Json.parse? text).bind Model.ofJson?

end SchemaBeans
