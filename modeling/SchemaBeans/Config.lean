import SchemaBeans.Path
import SchemaBeans.Text.Expected
import SchemaBeans.Toml.Reader
import SchemaBeans.Toml.Writer

/-!
# Configuration

A configuration says where schemas are and where sources go. It is kept in a
TOML document; what the document leaves out has its default, and what is unknown
there is an error.
-/

namespace SchemaBeans

/-- The name of the configuration file of a project. -/
def projectFile : String := "modelgen.toml"

/-- The directory below a build directory that receives the sources. -/
def generatedDirectory : String := "generated-sources"

/-- A configuration. -/
structure Config where
  /-- The log level, or a filter for log events. -/
  level : String
  /-- The directory that holds the model directory. -/
  resourceDir : Path
  modelDirectory : Path
  basePackage : String
  outputDir : Option Path
  /-- The directory for the sources when nothing else tells it. -/
  buildDir : Path
  /-- The number of workers; zero stands for the available cores. -/
  jobs : Nat
  echo : Bool
  boilerplate : List String
  deriving DecidableEq, Repr

namespace Config

/-- The configuration that holds where nothing is configured. -/
def default : Config :=
  { level := "info"
    resourceDir := ⟨"resources"⟩
    modelDirectory := ⟨"model"⟩
    basePackage := "com.example.model"
    outputDir := none
    buildDir := ⟨"target"⟩
    jobs := 0
    echo := false
    boilerplate := [] }

/-- Where schemas are looked for. -/
def schemaRoot (config : Config) : Path := config.resourceDir.join config.modelDirectory

/-- Where sources go: to the configured directory, else below the build tool's directory if the
environment tells one, else below the build directory. -/
def resolvedOutput (config : Config) (buildTool : Option String) : Path :=
  match config.outputDir with
  | some directory => directory
  | none =>
      let base := match buildTool with
        | some text => if text.isEmpty then config.buildDir else ⟨text⟩
        | none => config.buildDir
      base.join ⟨generatedDirectory⟩

/-- The text of a configuration file. -/
def render (config : Config) : String :=
  "[logging]\n" ++ Toml.line "level" (Toml.stringText config.level) ++
    "\n[codegen]\n" ++
    Toml.line "resource_dir" (Toml.stringText config.resourceDir.text) ++
    Toml.line "model_directory" (Toml.stringText config.modelDirectory.text) ++
    Toml.line "base_package" (Toml.stringText config.basePackage) ++
    (match config.outputDir with
      | some directory => Toml.line "output_dir" (Toml.stringText directory.text)
      | none => "") ++
    Toml.line "build_dir" (Toml.stringText config.buildDir.text) ++
    Toml.line "jobs" (toString config.jobs) ++
    Toml.line "echo" (Toml.boolText config.echo) ++
    Toml.line "boilerplate" (Toml.stringsText config.boilerplate)

/-- Why a document is no configuration. -/
inductive Problem where
  /-- The text is no TOML document. -/
  | malformed
  | wrongType (found expected : String)
  | wrongValue (found expected : String)
  | unknownField (name : String) (known : List String)
  deriving DecidableEq, Repr

/-- The wording of a problem. Malformed text has no wording of its own. -/
def Problem.message? : Problem → Option String
  | malformed => none
  | wrongType found expected => some ("invalid type: " ++ found ++ ", expected " ++ expected)
  | wrongValue found expected => some ("invalid value: " ++ found ++ ", expected " ++ expected)
  | unknownField name known => some ("unknown field `" ++ name ++ "`, " ++ Text.expectedNames known)

/-- The outcome of reading a part of a document. -/
abbrev Reading (α : Type) := Except Problem α

/-- The text of a value. -/
def readText (expected : String) : Toml.Value → Reading String
  | .string text => .ok text
  | other => .error (.wrongType other.shown expected)

/-- The path of a value. -/
def readPath (value : Toml.Value) : Reading Path := (readText "path string" value).map Path.mk

/-- The number of workers of a value. -/
def readJobs : Toml.Value → Reading Nat
  | .integer value =>
      if 0 ≤ value && value < Word.limit then .ok value.toNat
      else .error (.wrongValue (Toml.Value.integer value).shown "usize")
  | other => .error (.wrongType other.shown "usize")

/-- The truth value of a value. -/
def readBool : Toml.Value → Reading Bool
  | .bool value => .ok value
  | other => .error (.wrongType other.shown "a boolean")

/-- The texts of a value. -/
def readTexts : Toml.Value → Reading (List String)
  | .array items _ => items.mapM (readText "a string")
  | other => .error (.wrongType other.shown "a sequence")

/-- A way to read one field into a configuration. -/
abbrev FieldReader := Config → Toml.Value → Reading Config

/-- The fields of the logging table, in their order. -/
def loggingFields : List (String × FieldReader) :=
  [("level", fun config value => do return { config with level := ← readText "a string" value })]

/-- The fields of the code generation table, in their order. -/
def codegenFields : List (String × FieldReader) :=
  [("resource_dir", fun config value => do return { config with resourceDir := ← readPath value }),
   ("model_directory", fun config value => do
      return { config with modelDirectory := ← readPath value }),
   ("base_package", fun config value => do
      return { config with basePackage := ← readText "a string" value }),
   ("output_dir", fun config value => do
      return { config with outputDir := some (← readPath value) }),
   ("build_dir", fun config value => do return { config with buildDir := ← readPath value }),
   ("jobs", fun config value => do return { config with jobs := ← readJobs value }),
   ("echo", fun config value => do return { config with echo := ← readBool value }),
   ("boilerplate", fun config value => do
      return { config with boilerplate := ← readTexts value })]

/-- The name under which a date and time is a table of its own. -/
def datetimeField : String := "$__toml_private_datetime"

/-- Reads one entry of a table. -/
def readField (fields : List (String × FieldReader)) (config : Config)
    (entry : String × Toml.Value) : Reading Config :=
  match fields.lookup entry.1 with
  | some read => read config entry.2
  | none => .error (.unknownField entry.1 (fields.map Prod.fst))

/-- Reads items of an array as the fields of a table in their order. -/
def readPositions : List (String × FieldReader) → Config → List Toml.Value → Reading Config
  | (_, read) :: fields, config, value :: values => do
      readPositions fields (← read config value) values
  | _, config, _ => .ok config

/-- Reads a table of a configuration: a table, whose keys are read in their order, or an array of
the fields from the first on. -/
def readSection (fields : List (String × FieldReader)) (expected : String) : FieldReader :=
  fun config value =>
    match value with
    | .table entries _ =>
        (Toml.Entries.sorted entries).foldlM (readField fields) config
    | .array items _ => readPositions fields config items
    | .datetime _ => .error (.unknownField datetimeField (fields.map Prod.fst))
    | other => .error (.wrongType other.shown expected)

/-- The tables of a configuration. -/
def sections : List (String × FieldReader) :=
  [("logging", readSection loggingFields "struct LoggingConfig"),
   ("codegen", readSection codegenFields "struct CodegenConfig")]

/-- Reads a configuration from the text of a file. A problem is described only in a document whose
numbers have their ranges. -/
def parse (text : String) : Reading Config :=
  match Toml.parse? text with
  | none => .error .malformed
  | some entries =>
      (entries.sorted.foldlM (readField sections) default).mapError fun problem =>
        if Toml.Value.entriesInRange entries then problem else .malformed

end Config

end SchemaBeans
