import SchemaBeans.Config
import SchemaBeans.FileSystem.Change

/-!
# Projects and their configuration files

A project is a directory with a configuration file, or the root of a workspace.
Its configuration is looked for from the working directory upwards; where there
is none, that of the user is taken, and else the default.
-/

namespace SchemaBeans

/-- Why a configuration cannot be loaded or saved. -/
inductive ConfigError where
  | unreadable (error : AccessError)
  | unusable (problem : Config.Problem)
  | notFound (path : Path)
  deriving DecidableEq, Repr

/-- The wording of a configuration error. -/
def ConfigError.message : ConfigError → String
  | unreadable error => "Failed to read config file: " ++ error.message
  | unusable problem =>
      "Failed to parse config file: " ++ problem.message?.getD "malformed document"
  | notFound path => "Config file not found at: " ++ path.text

namespace Project

/-- The file that describes a package or a workspace to the build tool. -/
def manifestFile : String := "Cargo.toml"

/-- What marks the root of a workspace in its file. -/
def workspaceMark : String := "[workspace]"

/-- Whether a text contains another. -/
def contains (part : List Char) : List Char → Bool
  | [] => part.isEmpty
  | first :: rest => part.isPrefixOf (first :: rest) || contains part rest

/-- Whether the manifest in a directory is that of a workspace. -/
def isWorkspace (files : FileSystem) (directory : Path) : Bool :=
  match files.read (directory.join ⟨manifestFile⟩) with
  | .ok text => contains workspaceMark.toList text.toList
  | .error _ => false

/-- Whether a directory is the root of a project. -/
def isRoot (files : FileSystem) (directory : Path) : Bool :=
  files.isFile (directory.join ⟨projectFile⟩) || isWorkspace files directory

/-- The nearest root of a project at a path or above it. -/
def rootFrom? (files : FileSystem) (start : Path) : Option Path :=
  start.ancestors.find? (isRoot files)

/-- The root of the project of the working directory. -/
def root? (files : FileSystem) : Option Path := rootFrom? files files.workPath

/-- The configuration file of the project of the working directory. -/
def configFile? (files : FileSystem) : Option Path :=
  ((root? files).map fun root => root.join ⟨projectFile⟩).filter files.isFile

end Project

namespace Config

/-- The configuration file of a user, below the directory for the configurations of all
programs. -/
def userFile (directory : Path) : Path := (directory.join ⟨"modelgen"⟩).join ⟨"config.toml"⟩

/-- The configuration in a file. -/
def ofFile (files : FileSystem) (path : Path) : Except ConfigError Config :=
  match files.read path with
  | .error error => .error (.unreadable error)
  | .ok text =>
      match parse text with
      | .error problem => .error (.unusable problem)
      | .ok config => .ok config

/-- The configuration of the project, else that of the user, else the default. -/
def ofSurroundings (files : FileSystem) (userDirectory : Option Path) :
    Except ConfigError Config :=
  match Project.configFile? files, (userDirectory.map userFile).filter files.isFile with
  | some file, _ => ofFile files file
  | none, some file => ofFile files file
  | none, none => .ok default

/-- The configuration that a run uses. A file that is named must be there. -/
def load (files : FileSystem) (userDirectory : Option Path) :
    Option Path → Except ConfigError Config
  | some path => if files.isFile path then ofFile files path else .error (.notFound path)
  | none => ofSurroundings files userDirectory

/-- The files after a configuration is saved. -/
def save (config : Config) (path : Path) (files : FileSystem) : Except ConfigError FileSystem :=
  match files.write path config.render with
  | .ok files => .ok files
  | .error error => .error (.unreadable error)

end Config

end SchemaBeans
