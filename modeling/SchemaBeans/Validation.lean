import SchemaBeans.Identifier
import SchemaBeans.Model
import SchemaBeans.Text.Blank

/-!
# Validation of one model

A model is fit for generation when its type name and property names are valid
identifiers, no property name occurs twice, and no two properties share the
stem of their accessors. `Model.issues` lists every problem in declaration order.
-/

namespace SchemaBeans

/-- A problem found in one model. -/
inductive Issue where
  | emptyTypeName
  | invalidTypeName (name : String)
  | invalidPropertyName (name : String)
  | reservedWord (name : String)
  | duplicateProperty (name : String)
  | accessorClash (earlier property stem : String)
  deriving DecidableEq, Repr

/-- The wording of an issue. -/
def Issue.message : Issue → String
  | emptyTypeName => "type name is empty"
  | invalidTypeName name => "type name `" ++ name ++ "` is not a valid identifier"
  | invalidPropertyName name => "property name `" ++ name ++ "` is not a valid identifier"
  | reservedWord name => "`" ++ name ++ "` is a reserved word"
  | duplicateProperty name => "duplicate property `" ++ name ++ "`"
  | accessorClash earlier property stem =>
      "properties `" ++ earlier ++ "` and `" ++ property ++ "` both generate `get" ++ stem ++
        "`/`set" ++ stem ++ "`"

/-- The problems of a type name: at most one. -/
def typeNameIssues (name : String) : List Issue :=
  if Text.allBlank name.toList then [.emptyTypeName]
  else if !Identifier.isIdentifier name then [.invalidTypeName name]
  else if Identifier.isReserved name then [.reservedWord name]
  else []

/-- The problems of a property name by itself: at most one. -/
def propertyNameIssues (name : String) : List Issue :=
  if !Identifier.isIdentifier name then [.invalidPropertyName name]
  else if Identifier.isReserved name then [.reservedWord name]
  else []

/-- The problem of a property name among the names declared before it: a repetition, else a clash
with the first earlier name of the same stem. -/
def clashIssues (earlier : List String) (name : String) : List Issue :=
  if earlier.contains name then [.duplicateProperty name]
  else
    match earlier.find? fun other => Identifier.stem other = Identifier.stem name with
    | some other => [.accessorClash other name (Identifier.stem name)]
    | none => []

/-- The problems of a list of property names, given the names declared before them. -/
def propertyIssues (earlier : List String) : List String → List Issue
  | [] => []
  | name :: names =>
      propertyNameIssues name ++ clashIssues earlier name ++
        propertyIssues (earlier ++ [name]) names

/-- Every problem of a model, in declaration order. -/
def Model.issues (model : Model) : List Issue :=
  typeNameIssues model.typeName ++ propertyIssues [] (model.properties.map Property.name)

end SchemaBeans
