import SchemaBeans.Identifier

/-!
# Names of generated methods

Accessors carry the stem of their property behind a verb. Configured names with
underscores become names in camel case.
-/

namespace SchemaBeans.Naming

/-- The name of an accessor: a verb and the stem of the property. -/
def accessor (verb property : String) : String := verb ++ Identifier.stem property

/-- The name of the method that reads a property. -/
def getter (property : String) : String := accessor "get" property

/-- The name of the method that writes a property. -/
def setter (property : String) : String := accessor "set" property

/-- A name with its first character in lower case. -/
def lowerCamel (name : String) : String := String.ofList (Text.lowerFirst name.toList)

/-- The words between underscores, each with its first character in upper case, run together and
started in lower case. -/
def camelOfWords (name : String) : String :=
  String.ofList (Text.lowerFirst ((Text.split '_' name.toList).flatMap Text.upperFirst))

end SchemaBeans.Naming
