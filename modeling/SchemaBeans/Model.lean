import SchemaBeans.Path
import SchemaBeans.TypeRef

/-!
# Models

A model describes one generatable type: its name, its properties in declaration
order, the namespace it lives in and the schema document it came from.
-/

namespace SchemaBeans

/-- The extensions of schema documents. -/
def schemaExtensions : List String := ["yaml", "yml"]

/-- Whether two texts agree up to the case of ASCII letters. -/
def sameIgnoringCase (left right : String) : Bool :=
  left.toList.map Char.toLower = right.toList.map Char.toLower

/-- Whether a path has one of the extensions, up to the case of ASCII letters. -/
def hasExtension (path : Path) (extensions : List String) : Bool :=
  match path.extension? with
  | some extension => extensions.any fun allowed => sameIgnoringCase allowed extension
  | none => false

/-- A schema document found below a root. -/
structure SchemaFile where
  path : Path
  /-- The path relative to the root. -/
  relative : Path
  deriving DecidableEq, Repr

namespace SchemaFile

/-- The schema file at `path` below `root`. A path outside the root counts as a file directly
below it. -/
def below (root path : Path) : SchemaFile :=
  ⟨path, (path.relativeTo? root).getD ((path.fileName?.map Path.mk).getD path)⟩

/-- The file name of the document, empty if its path has none. -/
def fileName (file : SchemaFile) : String := file.path.fileName?.getD ""

/-- The directories between the root and the document. -/
def directories (file : SchemaFile) : List String :=
  (file.relative.parent?.map Path.names).getD []

/-- The order of schema files: by path, then by relative path. -/
def compare (left right : SchemaFile) : Ordering :=
  (left.path.compare right.path).then (left.relative.compare right.relative)

end SchemaFile

/-- One typed field of a model. -/
structure Property where
  name : String
  type : TypeRef
  description : Option String
  deriving DecidableEq, Repr

/-- The description of one generatable type. -/
structure Model where
  typeName : String
  description : Option String
  properties : List Property
  space : List String
  /-- The schema document, relative to the schema root. -/
  source : Path
  deriving DecidableEq, Repr

namespace Model

/-- The first property of the given name. -/
def property? (model : Model) (name : String) : Option Property :=
  model.properties.find? fun property => property.name = name

/-- The models that the properties mention, in declaration order. -/
def references (model : Model) : List String :=
  model.properties.filterMap fun property => property.type.reference?

/-- A description of the model for people, one line per fact. -/
def describe (model : Model) : String :=
  let space := if model.space.isEmpty then "<root>" else Text.joinStrings "." model.space
  let description := match model.description with
    | some text => "  description: " ++ text ++ "\n"
    | none => ""
  let properties :=
    if model.properties.isEmpty then "  properties: <none>\n"
    else
      "  properties:\n" ++ String.join (model.properties.map fun property =>
        "    " ++ property.name ++ ": " ++ property.type.print ++ "\n")
  "Model " ++ model.typeName ++ "\n" ++ description ++ "  namespace: " ++ space ++ "\n" ++
    "  source: " ++ model.source.text ++ "\n" ++ properties

end Model

end SchemaBeans
