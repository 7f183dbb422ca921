import SchemaBeans.Command
import SchemaBeans.CommandLine.Argument
import SchemaBeans.Log.Filter

/-!
# The command line

The arguments name one command with its options. Log events and remarks go to
standard error, everything else to standard output, and the exit code tells
whether the command was clean.
-/

namespace SchemaBeans.CommandLine

/-- The name of the program and its version. -/
def versionText : String := "0.1.0"

/-- What the environment tells a program. -/
structure Environment where
  /-- The number of available cores. -/
  cores : Nat
  /-- The directory of the build tool for what is built. -/
  buildTool : Option String
  /-- The directory for the user's configurations. -/
  userDirectory : Option Path
  /-- A filter for log events. -/
  logFilter : Option String
  deriving DecidableEq, Repr

/-- A command with its options. -/
inductive Action where
  | generate (overrides : Overrides)
  | dumpModels (schemaRoot : Option Path) (json : Bool)
  | initConfig (path : Option Path) (force : Bool)
  deriving DecidableEq, Repr

/-- What the arguments ask for. -/
structure Invocation where
  action : Action
  /-- The configuration file. -/
  config : Option Path
  logLevel : Option String
  deriving DecidableEq, Repr

/-- What a command line amounts to. -/
inductive Request where
  | refused
  | help
  | version
  | invocation (invocation : Invocation)
  deriving DecidableEq, Repr

/-- The options that may stand before and after the name of a command. -/
def globalOptions : List OptionSpec := [⟨"config", .path⟩, ⟨"log-level", .text⟩]

/-- The options of the command that generates sources. -/
def generateOptions : List OptionSpec :=
  [⟨"schema-root", .path⟩, ⟨"output", .path⟩, ⟨"base-package", .text⟩, ⟨"jobs", .number⟩,
   ⟨"echo", .flag⟩, ⟨"boilerplate", .texts⟩]

/-- The options of the command that shows models. -/
def dumpOptions : List OptionSpec := [⟨"schema-root", .path⟩, ⟨"json", .flag⟩]

/-- The options of the command that writes the default configuration. -/
def initOptions : List OptionSpec := [⟨"path", .path⟩, ⟨"force", .flag⟩]

/-- The command that generates sources with some options. -/
def generateAction (given : Given) : Action :=
  .generate
    { schemaRoot := (given.lookup "schema-root").map Path.mk
      output := (given.lookup "output").map Path.mk
      basePackage := given.lookup "base-package"
      jobs := (given.lookup "jobs").bind number?
      echo := given.has "echo"
      boilerplate := given.all "boilerplate" }

/-- The command that shows models with some options. -/
def dumpAction (given : Given) : Action :=
  .dumpModels ((given.lookup "schema-root").map Path.mk) (given.has "json")

/-- The command that writes the default configuration with some options. -/
def initAction (given : Given) : Action :=
  .initConfig ((given.lookup "path").map Path.mk) (given.has "force")

/-- The commands with their names and options. -/
def commands : List (String × List OptionSpec × (Given → Action)) :=
  [("generate", generateOptions, generateAction), ("dump-models", dumpOptions, dumpAction),
   ("init-config", initOptions, initAction)]

/-- The request of a command with its arguments, after the options in front of its name. An option
behind the name wins over the same option in front of it. -/
def ofCommand (before : Given) (specs : List OptionSpec) (action : Given → Action)
    (arguments : List String) : Request :=
  match readOptions (globalOptions ++ specs) false [] arguments with
  | .refused => .refused
  | .help => .help
  | .version => .version
  | .options _ (_ :: _) => .refused
  | .options given [] =>
      .invocation
        { action := action given
          config := ((given.lookup "config").or (before.lookup "config")).map Path.mk
          logLevel := (given.lookup "log-level").or (before.lookup "log-level") }

/-- Whether help can be shown for the arguments after a request for help. -/
def isHelpTopic (arguments : List String) : Bool :=
  match arguments with
  | [] => true
  | [name] => name = "help" || (commands.lookup name).isSome
  | _ => false

/-- What the arguments of the program ask for. -/
def Request.ofArguments (arguments : List String) : Request :=
  match readOptions globalOptions true [] arguments with
  | .refused => .refused
  | .help => .help
  | .version => .version
  | .options _ [] => .refused
  | .options given (name :: rest) =>
      match commands.lookup name with
      | some (specs, action) => ofCommand given specs action rest
      | none => if name = "help" && isHelpTopic rest then .help else .refused

/-- The paths below which a request may read or change files, the configuration files apart. -/
def Request.trees (environment : Environment) (files : FileSystem) (request : Request) :
    List Path :=
  match request with
  | .invocation asked =>
      match asked.action, Config.load files environment.userDirectory asked.config with
      | .generate overrides, .ok config =>
          [overrides.schemaRoot.getD config.schemaRoot,
           overrides.output.getD (config.resolvedOutput environment.buildTool)]
      | .dumpModels schemaRoot _, .ok config => [schemaRoot.getD config.schemaRoot]
      | .initConfig path _, _ => [Command.initPath path]
      | _, _ => []
  | _ => []

/-- How a program ends. -/
structure Exit where
  code : Nat
  output : String
  errors : String
  deriving DecidableEq, Repr

/-- What is shown when help is asked for. -/
def helpText : String :=
  "Generate JavaBean sources from YAML model schemas\n\n" ++
    "Usage: modelgen [--config FILE] [--log-level FILTER] COMMAND [OPTIONS]\n\n" ++
    "Commands:\n" ++
    String.join (commands.map fun (name, specs, _) =>
      "  " ++ name ++ String.join (specs.map fun spec => " --" ++ spec.name) ++ "\n")

/-- The end of a command that says something on standard error. -/
def exitOf (filter : Filter) (outcome : Except Command.Failure Command.Outcome) (host : Host) :
    Exit :=
  let log := filter.lines host.events
  match outcome with
  | .ok outcome => ⟨if outcome.clean then 0 else 1, host.outputText, log ++ outcome.remarks⟩
  | .error failure => ⟨1, host.outputText, log ++ "error: " ++ failure.message ++ "\n"⟩

/-- Runs a command that works with a loaded configuration. -/
def runConfigured (environment : Environment) (invocation : Invocation)
    (command : Config → Host → Except Command.Failure Command.Outcome × Host)
    (files : FileSystem) : Exit × FileSystem :=
  match Config.load files environment.userDirectory invocation.config with
  | .error error => (⟨1, "", "error: " ++ error.message ++ "\n"⟩, files)
  | .ok config =>
      let filter :=
        Filter.resolve environment.logFilter (invocation.logLevel.getD config.level)
      let (outcome, host) := command config (.ofFiles files)
      (exitOf filter outcome host, host.files)

/-- Runs a command. -/
def runInvocation (environment : Environment) (invocation : Invocation) (files : FileSystem) :
    Exit × FileSystem :=
  match invocation.action with
  | .generate overrides =>
      runConfigured environment invocation
        (fun config =>
          Command.generate environment.cores environment.buildTool config overrides) files
  | .dumpModels schemaRoot json =>
      runConfigured environment invocation
        (fun config => Command.dumpModels environment.cores config schemaRoot json) files
  | .initConfig path force =>
      match Command.initConfig path force files with
      | (.ok written, files) => (⟨0, "wrote " ++ written.text ++ "\n", ""⟩, files)
      | (.error failure, files) => (⟨1, "", "error: " ++ failure.message ++ "\n"⟩, files)

/-- Runs the program on some files. Arguments that cannot be used give the exit code 2. -/
def run (environment : Environment) (arguments : List String) (files : FileSystem) :
    Exit × FileSystem :=
  match Request.ofArguments arguments with
  | .refused => (⟨2, "", "error: the arguments cannot be used\n\n" ++ helpText⟩, files)
  | .help => (⟨0, helpText, ""⟩, files)
  | .version => (⟨0, "modelgen " ++ versionText ++ "\n", ""⟩, files)
  | .invocation invocation => runInvocation environment invocation files

end SchemaBeans.CommandLine
