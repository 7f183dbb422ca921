import SchemaBeans.Model
import SchemaBeans.Package
import SchemaBeans.Sorted

/-!
# The index of a run

Every model of a run has a qualified name: its namespace and its type name. A
reference names a type only; seen from a namespace it means the sole type of
that name, or among several the one of the same namespace.
-/

namespace SchemaBeans

/-- The place of a model in a run: its namespace and its type name. -/
structure QualifiedName where
  space : List String
  typeName : String
  deriving DecidableEq, Repr

namespace QualifiedName

/-- The qualified name of a model. -/
def ofModel (model : Model) : QualifiedName := ⟨model.space, model.typeName⟩

/-- The order of qualified names: by namespace, segment by segment, then by type name. -/
def compare (left right : QualifiedName) : Ordering :=
  (List.compareLex Ord.compare left.space right.space).then
    (Ord.compare left.typeName right.typeName)

instance : Std.TransCmp compare :=
  inferInstanceAs (Std.TransCmp (compareLex (compareOn space) (compareOn typeName)))

instance : Std.LawfulEqCmp compare where
  eq_of_compare {left right} equal := by
    obtain ⟨spaces, typeNames⟩ := Ordering.then_eq_eq.mp equal
    have spaces := Std.LawfulEqCmp.eq_of_compare spaces
    have typeNames := Std.LawfulEqCmp.eq_of_compare typeNames
    cases left
    cases right
    simp_all

/-- The package of the named type below a base package. -/
def package (name : QualifiedName) (base : String) : String := Package.qualify base name.space

/-- The name with dots between its parts. -/
def dotted (name : QualifiedName) : String :=
  if name.space.isEmpty then name.typeName
  else Text.joinStrings "." name.space ++ "." ++ name.typeName

end QualifiedName

/-- Why a reference means no type. -/
inductive ResolutionFailure where
  | unknown
  | ambiguous (candidates : List QualifiedName)
  deriving DecidableEq, Repr

/-- A property whose type cannot be resolved. -/
structure ResolutionError where
  /-- The document of the referencing model. -/
  schema : Path
  model : String
  property : String
  reference : String
  failure : ResolutionFailure
  deriving DecidableEq, Repr

/-- What is said of a reference that means no type. -/
def ResolutionFailure.message (reference : String) : ResolutionFailure → String
  | unknown => "unknown type `" ++ reference ++ "`"
  | ambiguous candidates =>
      "ambiguous type `" ++ reference ++ "` (candidates: " ++
        Text.joinStrings ", " (candidates.map QualifiedName.dotted) ++ ")"

/-- The wording of a resolution error. -/
def ResolutionError.message (error : ResolutionError) : String :=
  error.schema.text ++ ": property `" ++ error.property ++ "` of `" ++ error.model ++
    "` references " ++ error.failure.message error.reference

/-- The qualified names of a run, strictly sorted. -/
structure Index where
  names : List QualifiedName
  deriving DecidableEq, Repr

namespace Index

/-- The index of a list of models. -/
def ofModels (models : List Model) : Index :=
  ⟨Sorted.ofList QualifiedName.compare (models.map QualifiedName.ofModel)⟩

/-- The qualified names with a given type name, strictly sorted. -/
def candidates (index : Index) (typeName : String) : List QualifiedName :=
  index.names.filter fun name => name.typeName = typeName

/-- The number of distinct type names. -/
def size (index : Index) : Nat :=
  (Sorted.ofList Ord.compare (index.names.map QualifiedName.typeName)).length

/-- What a type name means in a namespace. -/
def resolve (index : Index) (typeName : String) (space : List String) :
    Except ResolutionFailure QualifiedName :=
  match index.candidates typeName with
  | [] => .error .unknown
  | [only] => .ok only
  | several =>
      match several.find? fun name => name.space = space with
      | some own => .ok own
      | none => .error (.ambiguous several)

/-- The error of one property of a model, if its type mentions a model that cannot be resolved. -/
def propertyError? (index : Index) (model : Model) (property : Property) : Option ResolutionError :=
  property.type.reference?.bind fun reference =>
    match index.resolve reference model.space with
    | .ok _ => none
    | .error failure => some ⟨model.source, model.typeName, property.name, reference, failure⟩

/-- The first resolution error of a model. -/
def referenceError? (index : Index) (model : Model) : Option ResolutionError :=
  model.properties.findSome? (index.propertyError? model)

end Index

end SchemaBeans
