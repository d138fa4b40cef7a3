import FiberWeave.Config.File
import FiberWeave.Engine.Command
import FiberWeave.Pipeline

/-!
# From arguments, environment and file to settings

A user tells the program what to do on the command line, in the environment and in a configuration
file. What can only have one value is taken from the first of them that has it, a flag is set if
anything sets it, and lists are put one after the other, that of the file first.

* `RunArguments`, `Environment` — what the command line and the environment say.
* `FileConfig.find` — the configuration file that is meant.
* `RunArguments.settings` — the settings of a run.
* `EngineArguments.command` — the engine of a run.
-/

namespace FiberWeave

/-! ## Options of two origins -/

/-- The options that either side sets. -/
def EngineOptions.union (a b : EngineOptions) : EngineOptions where
  check := a.check || b.check
  verbose := a.verbose || b.verbose
  debug := a.debug || b.debug
  allowMonitors := a.allowMonitors || b.allowMonitors
  allowBlocking := a.allowBlocking || b.allowBlocking

/-- The options that a configuration file sets. -/
def FileConfig.options (c : FileConfig) : EngineOptions where
  check := c.check.getD false
  verbose := c.verbose.getD false
  debug := c.debug.getD false
  allowMonitors := c.allowMonitors.getD false
  allowBlocking := c.allowBlocking.getD false

/-! ## The environment -/

/-- What the environment says, as far as it is set. -/
structure Environment where
  configPath : Option String := none
  engine : Option String := none
  logFilter : Option String := none
  deriving DecidableEq, Repr, Inhabited

namespace Environment

/-- The variable that names a configuration file. -/
def configVariable : String := "FIBER_INSTRUMENT_CONFIG"

/-- The variable that names an engine. -/
def engineVariable : String := "FIBER_INSTRUMENT_ENGINE"

/-- The variable that says which messages are shown. -/
def logVariable : String := "RUST_LOG"

/-- The environment in which variables have their values by `lookup`. -/
def ofLookup (lookup : String → Option String) : Environment where
  configPath := lookup configVariable
  engine := lookup engineVariable
  logFilter := lookup logVariable

end Environment

/-- The configuration of a run: that of the file that the command line names, else of the one that
the environment names, else an empty one. -/
def FileConfig.find (t : FileTree) (named : Option String) (e : Environment) :
    Except FileConfig.LoadError FileConfig :=
  match named <|> e.configPath with
  | some path => FileConfig.load t path
  | none => .ok {}

/-! ## Settings -/

/-- What the command line says about a run. -/
structure RunArguments where
  buildDirectory : Option String := none
  options : EngineOptions := {}
  inclusions : List String := []
  classPath : List String := []
  deriving DecidableEq, Repr, Inhabited

/-- The failure of a run that is told no build directory. -/
def Failure.missingBuildDirectory : Failure :=
  .configuration
    "Missing build directory (pass BUILD_DIR or set buildDirectory in the config file)"

/-- The failure of a run that is told no engine. -/
def Failure.missingEngine : Failure :=
  .configuration ("No instrumentation engine configured (use --engine, "
    ++ Environment.engineVariable ++ " or the engine config key)")

/-- The settings of a run. -/
def RunArguments.settings (a : RunArguments) (file : FileConfig) : Except Failure Settings :=
  match a.buildDirectory <|> file.buildDirectory with
  | none => .error .missingBuildDirectory
  | some buildDirectory =>
      .ok {
        buildDirectory
        options := a.options.union file.options
        inclusions := (InclusionPolicy.ofList file.inclusions).extend a.inclusions
        classPath := file.classPath ++ a.classPath }

/-- What the command line says about the engine. -/
structure EngineArguments where
  program : Option String := none
  arguments : List String := []
  deriving DecidableEq, Repr, Inhabited

/-- The engine of a run. An empty variable names a program, too. -/
def EngineArguments.command (a : EngineArguments) (e : Environment) (file : FileConfig) :
    Except Failure EngineCommand :=
  match a.program <|> e.engine <|> file.engine with
  | none => .error .missingEngine
  | some program => .ok { program, arguments := file.engineArguments ++ a.arguments }

end FiberWeave
