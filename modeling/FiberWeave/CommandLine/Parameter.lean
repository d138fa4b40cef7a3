import FiberWeave.Config.Settings

/-!
# What can stand on a command line

The program has two commands, and some options that may stand before or after the name of the
command. What a name means depends on where it stands.

* `Command`, `Flag`, `Parameter` — the things that can be given.
* `Scope`, `Scope.named?`, `Scope.short?` — where an argument stands, and the names known there.
* `Stop` — why an argument list is no order to do something.
* `Given` — what was given so far; `Given.raise` and `Given.put` add to it.
-/

namespace FiberWeave.CommandLine

/-! ## Names -/

/-- What the program does. -/
inductive Command where
  | instrument
  | classify
  deriving DecidableEq, Repr, Inhabited

/-- The words that stand for commands, and the one that asks for help. -/
def Command.ofWord? : String → Option Command
  | "instrument" => some .instrument
  | "classify" => some .classify
  | _ => none

/-- The word that asks for help like a command. -/
def helpWord : String := "help"

/-- Whether a word stands where a command stands. -/
def isCommandWord (word : String) : Bool :=
  (Command.ofWord? word).isSome || word == helpWord

/-- What is given by its name alone. -/
inductive Flag where
  | help
  | version
  | check
  | verbose
  | debug
  | allowMonitors
  | allowBlocking
  deriving DecidableEq, Repr, Inhabited

/-- What is given as a value. -/
inductive Parameter where
  /-- Has no name, but a place. -/
  | buildDirectory
  | config
  | format
  | inclusion
  | classPath
  | engine
  | engineArgument
  deriving DecidableEq, Repr, Inhabited

/-- What a name stands for. -/
inductive Named where
  | flag (f : Flag)
  | valued (p : Parameter)
  deriving DecidableEq, Repr, Inhabited

/-- Where an argument stands: before the name of the command or after it. -/
inductive Scope where
  | program
  | command (c : Command)
  deriving DecidableEq, Repr, Inhabited

namespace Scope

/-- The names known everywhere. -/
def everywhere : List (String × Named) :=
  [("config", .valued .config), ("format", .valued .format), ("help", .flag .help)]

/-- The names of what a run is told. -/
def ofRun : List (String × Named) :=
  [("check", .flag .check), ("verbose", .flag .verbose), ("debug", .flag .debug),
    ("allow-monitors", .flag .allowMonitors), ("allow-blocking", .flag .allowBlocking),
    ("include", .valued .inclusion), ("classpath", .valued .classPath)]

/-- The names of what is said about an engine. -/
def ofEngine : List (String × Named) :=
  [("engine", .valued .engine), ("engine-arg", .valued .engineArgument)]

/-- The names known in a scope. -/
def names : Scope → List (String × Named)
  | program => everywhere ++ [("version", .flag .version)]
  | command .classify => everywhere ++ ofRun
  | command .instrument => everywhere ++ ofRun ++ ofEngine

/-- What a name stands for. -/
def named? (s : Scope) (name : String) : Option Named :=
  (s.names.find? fun row => row.1 == name).map (·.2)

/-- What a letter stands for. -/
def short? (s : Scope) (letter : Char) : Option Named :=
  if letter = 'f' then some (.valued .format)
  else if letter = 'h' then some (.flag .help)
  else if letter = 'V' ∧ s = program then some (.flag .version)
  else none

end Scope

/-! ## Why an argument list is no order -/

/-- Why an argument list is no order to do something. -/
inductive Stop where
  | helpAsked
  | versionAsked
  /-- There is nothing on the command line. -/
  | nothingGiven
  | missingCommand
  | invalidCommand
  | unknownArgument
  /-- A value is missing, or is none of those that are allowed. -/
  | invalidValue
  /-- A flag has a value. -/
  | unexpectedValue
  /-- What can be given once is given again. -/
  | repeated
  deriving DecidableEq, Repr, Inhabited

/-! ## What was given -/

/-- The form of the report. -/
inductive Format where
  | json
  | text
  deriving DecidableEq, Repr, Inhabited

/-- The form that a word stands for. -/
def Format.ofWord? : String → Option Format
  | "json" => some .json
  | "text" => some .text
  | _ => none

/-- What was given so far. -/
structure Given where
  run : RunArguments := {}
  engine : EngineArguments := {}
  config : Option String := none
  format : Option Format := none
  deriving DecidableEq, Repr, Inhabited

namespace Given

/-- Whether an option is set already, and the options with it set. -/
def settingOf (o : EngineOptions) : Flag → Option (Bool × EngineOptions)
  | .help | .version => none
  | .check => some (o.check, { o with check := true })
  | .verbose => some (o.verbose, { o with verbose := true })
  | .debug => some (o.debug, { o with debug := true })
  | .allowMonitors => some (o.allowMonitors, { o with allowMonitors := true })
  | .allowBlocking => some (o.allowBlocking, { o with allowBlocking := true })

/-- Adds a flag. A flag that asks for a text ends the reading. -/
def raise (g : Given) (f : Flag) : Except Stop Given :=
  match settingOf g.run.options f with
  | some (true, _) => .error .repeated
  | some (false, options) => .ok { g with run := { g.run with options } }
  | none => .error (if f = .version then .versionAsked else .helpAsked)

/-- A value that can be given once. -/
def once {α : Type} (old : Option α) (new : Option α) (put : Option α → Given) :
    Except Stop Given :=
  if old.isSome then .error .repeated
  else if new.isNone then .error .invalidValue
  else .ok (put new)

/-- A path, which is never empty. -/
def path? (value : String) : Option String := if value.isEmpty then none else some value

/-- Adds a value. -/
def put (g : Given) (p : Parameter) (value : String) : Except Stop Given :=
  match p with
  | .buildDirectory =>
      once g.run.buildDirectory (path? value) fun x =>
        { g with run := { g.run with buildDirectory := x } }
  | .config => once g.config (path? value) fun x => { g with config := x }
  | .format => once g.format (Format.ofWord? value) fun x => { g with format := x }
  | .inclusion => .ok { g with run := { g.run with inclusions := g.run.inclusions ++ [value] } }
  | .classPath =>
      match path? value with
      | some x => .ok { g with run := { g.run with classPath := g.run.classPath ++ [x] } }
      | none => .error .invalidValue
  | .engine =>
      once g.engine.program (path? value) fun x => { g with engine := { g.engine with program := x } }
  | .engineArgument =>
      .ok { g with engine := { g.engine with arguments := g.engine.arguments ++ [value] } }

end Given

end FiberWeave.CommandLine
