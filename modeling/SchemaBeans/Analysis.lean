import SchemaBeans.Index
import SchemaBeans.Keyed.Ordered

/-!
# Analysis of a run

Models with the same qualified name are all rejected. Of the others, those with
a reference that cannot be resolved among the models still kept are rejected
too, in rounds, until every reference of every kept model can be resolved.
-/

namespace SchemaBeans

/-- Several documents define the same qualified type. -/
structure Collision where
  /-- The document that the error is about. -/
  schema : Path
  name : QualifiedName
  /-- The other documents with the same name, in their order. -/
  others : List Path
  deriving DecidableEq, Repr

/-- The wording of a collision. -/
def Collision.message (collision : Collision) : String :=
  collision.schema.text ++ ": type `" ++ collision.name.typeName ++ "` is also defined by " ++
    Text.joinStrings ", " (collision.others.map Path.text)

/-- Why a loaded model is left out of a run. -/
inductive Rejection where
  | collision (error : Collision)
  | unresolved (error : ResolutionError)
  deriving DecidableEq, Repr

/-- The wording of a rejection. -/
def Rejection.message : Rejection → String
  | collision error => error.message
  | unresolved error => error.message

/-- A model with its position among the models of a run. -/
abbrev Numbered := Nat × Model

/-- The models with their positions. -/
def numbered (models : List Model) : List Numbered :=
  models.zipIdx.map fun entry => (entry.2, entry.1)

/-- The models of a run in groups of one qualified name, in the order of the names. -/
def namesakes (models : List Model) : List (QualifiedName × List Numbered) :=
  Keyed.Ordered.collect QualifiedName.compare (fun entry => QualifiedName.ofModel entry.2)
    (fun members entry => members ++ [entry]) (numbered models)

/-- The collisions of models with one qualified name: one for each of them, with the documents of
the others. -/
def collisionsAmong (name : QualifiedName) (members : List Numbered) : List (Nat × Collision) :=
  members.map fun entry =>
    (entry.1, ⟨entry.2.source, name,
      (members.filter fun other => other.1 ≠ entry.1).map fun other => other.2.source⟩)

/-- The collisions of a run by position. -/
def collisions (models : List Model) : List (Nat × Collision) :=
  let contested := (namesakes models).filter fun group => 1 < group.2.length
  Keyed.Ordered.ofEntries Ord.compare
    (contested.flatMap fun group => collisionsAmong group.1 group.2)

/-- The outcome of an analysis. -/
structure Analysis where
  /-- The kept models, in their order. -/
  kept : List Numbered
  /-- The index of the kept models. -/
  index : Index
  /-- The rejected positions with their reasons, in the order in which they were found. -/
  rejected : List (Nat × Rejection)
  deriving DecidableEq, Repr

namespace Analysis

/-- The models of one round that have an unresolved reference. -/
def unresolved (index : Index) (models : List Numbered) : List (Nat × Rejection) :=
  models.filterMap fun entry =>
    (index.referenceError? entry.2).map fun error => (entry.1, .unresolved error)

/-- The models of one round whose references can all be resolved. -/
def resolved (index : Index) (models : List Numbered) : List Numbered :=
  models.filter fun entry => (index.referenceError? entry.2).isNone

/-- Rounds of resolution, each among the models that the one before it kept. A round that rejects
nothing is the last. -/
def rounds (models : List Numbered) : Analysis :=
  let index := Index.ofModels (models.map Prod.snd)
  let remaining := resolved index models
  if remaining.length < models.length then
    let later := rounds remaining
    { later with rejected := unresolved index models ++ later.rejected }
  else ⟨models, index, []⟩
termination_by models.length

/-- The analysis of the models of a run. -/
def ofModels (models : List Model) : Analysis :=
  let found := collisions models
  let clashes := (numbered models).filterMap fun entry =>
    (found.lookup entry.1).map fun collision => (entry.1, Rejection.collision collision)
  let rest := rounds ((numbered models).filter fun entry => (found.lookup entry.1).isNone)
  { rest with rejected := clashes ++ rest.rejected }

end Analysis

end SchemaBeans
