import SchemaBeans.Boilerplate
import SchemaBeans.DocComment
import SchemaBeans.Index
import SchemaBeans.Source

/-!
# Bean sources

A model becomes one public class: a private field for each property, then a
getter and a setter for each, in declaration order, then the enabled boilerplate
methods. Types of other packages are imported by their qualified names.
-/

namespace SchemaBeans

/-- How sources are emitted in a run. -/
structure EmitOptions where
  basePackage : String
  boilerplate : List Boilerplate
  deriving DecidableEq, Repr

namespace Bean

/-- The extension of the generated files. -/
def extension : String := "java"

/-- The short name of this kind of output. -/
def kind : String := "java-bean"

/-- A type as it is written in a class, with the imports that it needs. -/
structure TypeText where
  text : String
  imports : List String
  deriving DecidableEq, Repr

/-- The name of a primitive as the type of a field. -/
def plainName : Primitive → String
  | .string => "String"
  | .int => "int"
  | .long => "long"
  | .float => "float"
  | .double => "double"
  | .boolean => "boolean"
  | .decimal => "BigDecimal"
  | .date => "LocalDate"
  | .datetime => "OffsetDateTime"
  | .bytes => "byte[]"

/-- The name of a primitive as the element of a list. -/
def boxedName : Primitive → String
  | .int => "Integer"
  | .long => "Long"
  | .float => "Float"
  | .double => "Double"
  | .boolean => "Boolean"
  | other => plainName other

/-- The imports that a primitive needs. -/
def primitiveImports : Primitive → List String
  | .decimal => ["java.math.BigDecimal"]
  | .date => ["java.time.LocalDate"]
  | .datetime => ["java.time.OffsetDateTime"]
  | _ => []

/-- The import of a list. -/
def listImport : String := "java.util.List"

/-- The name under which a class uses another model: the simple name for a type of its own package,
the qualified name for a type of another package that is called like the class itself, and else the
simple name with an import. -/
def modelText (base : String) (model : Model) (target : QualifiedName) : TypeText :=
  let package := target.package base
  let qualified := package ++ "." ++ target.typeName
  if package = Package.qualify base model.space then ⟨target.typeName, []⟩
  else if target.typeName = model.typeName then ⟨qualified, []⟩
  else ⟨target.typeName, [qualified]⟩

/-- The text of a type; `boxed` tells whether it stands as the element of a list. -/
def typeText (base : String) (index : Index) (model : Model) (boxed : Bool) :
    TypeRef → Except (String × ResolutionFailure) TypeText
  | .primitive type =>
      .ok ⟨if boxed then boxedName type else plainName type, primitiveImports type⟩
  | .model name =>
      match index.resolve name model.space with
      | .ok target => .ok (modelText base model target)
      | .error failure => .error (name, failure)
  | .list element =>
      (typeText base index model true element).map fun inner =>
        ⟨"List<" ++ inner.text ++ ">", listImport :: inner.imports⟩

/-- A property with the text of its type. -/
structure Field where
  property : Property
  type : TypeText
  deriving DecidableEq, Repr

/-- The field of a property. -/
def field (base : String) (index : Index) (model : Model) (property : Property) :
    Except ResolutionError Field :=
  match typeText base index model false property.type with
  | .ok type => .ok ⟨property, type⟩
  | .error (reference, failure) =>
      .error ⟨model.source, model.typeName, property.name, reference, failure⟩

/-- The comment for an optional description. -/
def comment (indent : String) : Option String → String
  | some description => DocComment.render indent description
  | none => ""

/-- The declaration of a field with its comment. -/
def fieldText (field : Field) : String :=
  comment "    " field.property.description ++
    "    private " ++ field.type.text ++ " " ++ field.property.name ++ ";\n"

/-- The getter and the setter of a field, each after an empty line. -/
def accessorsText (field : Field) : String :=
  let name := field.property.name
  let type := field.type.text
  "\n    public " ++ type ++ " " ++ Naming.getter name ++ "() \x7b\n" ++
    "        return " ++ name ++ ";\n    \x7d\n" ++
    "\n    public void " ++ Naming.setter name ++ "(" ++ type ++ " " ++ name ++ ") \x7b\n" ++
    "        this." ++ name ++ " = " ++ name ++ ";\n    \x7d\n"

/-- The imports of a class, sorted and each once. -/
def imports (fields : List Field) : List String :=
  Sorted.ofList Ord.compare (fields.flatMap fun field => field.type.imports)

/-- The lines above the class: where the source comes from and that it is overwritten. -/
def header (source : Path) : String :=
  "// Generated by modelgen from " ++ source.componentText ++ ". Do not edit.\n" ++
    "// Regenerating overwrites this file; changes made by hand are lost.\n\n"

/-- The package declaration; the default package has none. -/
def packageText (package : String) : String :=
  if package.isEmpty then "" else "package " ++ package ++ ";\n\n"

/-- The import declarations with an empty line after them. -/
def importsText (imports : List String) : String :=
  if imports.isEmpty then ""
  else String.join (imports.map fun name => "import " ++ name ++ ";\n") ++ "\n"

/-- The body of a class between its braces. -/
def bodyText (options : EmitOptions) (fields : List Field) : String :=
  (if fields.isEmpty then "" else "\n") ++
    String.join (fields.map fieldText) ++ String.join (fields.map accessorsText) ++
    String.join (options.boilerplate.map fun method => "\n" ++ method.render)

/-- The source of a class from its fields. -/
def sourceText (options : EmitOptions) (model : Model) (fields : List Field) : String :=
  header model.source ++ packageText (Package.qualify options.basePackage model.space) ++
    importsText (imports fields) ++ comment "" model.description ++
    "public class " ++ model.typeName ++ " \x7b\n" ++ bodyText options fields ++ "\x7d\n"

/-- The unit of a model, or its first reference that cannot be resolved. -/
def emit (options : EmitOptions) (index : Index) (model : Model) :
    Except ResolutionError SourceUnit :=
  let package := Package.qualify options.basePackage model.space
  (model.properties.mapM (field options.basePackage index model)).map fun fields =>
    { package
      typeName := model.typeName
      source := sourceText options model fields
      relative := Package.unitPath package model.typeName extension }

end Bean

end SchemaBeans
