import SchemaBeans.Analysis
import SchemaBeans.Discovery.Step
import SchemaBeans.FileSystem
import SchemaBeans.SchemaDocument
import SchemaBeans.Validation

/-!
# The report of a run

A problem of one schema document leaves that document out and does not stop the
run. The report counts the documents and lists their problems.
-/

namespace SchemaBeans

/-- Why a document gives no model. -/
inductive LoadError where
  | unreadable (error : AccessError)
  | document (error : DocumentError)
  | invalid (issues : List Issue)
  deriving DecidableEq, Repr

/-- The wording of a load error, unless it is about malformed markup. -/
def LoadError.message? : LoadError → Option String
  | unreadable error => some error.message
  | document error => error.message?
  | invalid issues => some (Text.joinStrings "; " (issues.map Issue.message))

/-- Why a document is left out of a run. -/
inductive Cause where
  | load (error : LoadError)
  | rejected (rejection : Rejection)
  deriving DecidableEq, Repr

/-- A problem of one schema document. -/
structure Problem where
  schema : Path
  cause : Cause
  deriving DecidableEq, Repr

namespace Problem

/-- The kind of a problem. -/
def kind (problem : Problem) : String :=
  match problem.cause with
  | .load _ => "parse"
  | .rejected (.unresolved _) => "type resolution"
  | .rejected (.collision _) => "collision"

/-- The wording of a problem, unless it is about malformed markup. -/
def message? (problem : Problem) : Option String :=
  match problem.cause with
  | .load error => error.message?.map fun text => problem.schema.text ++ ": " ++ text
  | .rejected rejection => some rejection.message

/-- The wording of a problem. -/
def message (problem : Problem) : String :=
  problem.message?.getD (problem.schema.text ++ ": malformed document")

/-- The order of problems: by the paths of their documents. -/
def sorted (problems : List Problem) : List Problem :=
  problems.mergeSort fun left right => left.schema.compare right.schema ≠ .gt

end Problem

/-- The outcome of a run. -/
structure Report where
  discovered : Nat
  loaded : Nat
  generated : Nat
  /-- The written files, in the order of their models. -/
  written : List Path
  /-- The problems in the order of the documents' paths. -/
  problems : List Problem
  warnings : List Warning
  deriving DecidableEq, Repr

namespace Report

/-- Whether every document gave a source. -/
def isSuccess (report : Report) : Bool := report.problems.isEmpty

/-- The counts of a run in one line. -/
def summary (report : Report) : String :=
  "discovered " ++ toString report.discovered ++ ", loaded " ++ toString report.loaded ++
    ", generated " ++ toString report.generated

end Report

end SchemaBeans
