import FiberWeave.CommandLine.Arguments
import FiberWeave.Log.Filter
import FiberWeave.Log.Terminal

/-!
# The program

What the program does with its arguments, as a function: from a file tree to a file tree, an exit
code and two texts.

* `Ending` — how the program ends; `Ending.exitCode`, `Ending.output` and `Ending.errors` are what
  can be seen of it.
* `Session` — an ending with the messages before it and the workspace that is left.
* `run` — the program.
* `pathsToRead` — the paths that the program looks at.
-/

namespace FiberWeave.CommandLine

/-! ## Endings -/

/-- How the program ends. -/
inductive Ending where
  /-- The arguments are no order to do something. -/
  | stopped (cause : Stop)
  | failed (message : String) (causes : List String)
  | classified (report : ClassificationReport) (format : Format)
  | instrumented (report : RunReport) (format : Format)
  deriving DecidableEq, Repr, Inhabited

/-- The name and version of the program. -/
def versionText : String := "fiber-instrument 0.0.1-beta"

/-- How the program is to be called. -/
def usageText : String :=
  "\n".intercalate [
    "Instrument compiled classes ahead of time so their suspendable methods can run in fibers",
    "",
    "Usage: fiber-instrument [OPTIONS] [COMMAND] [BUILD_DIR]",
    "",
    "Commands:",
    "  instrument  classify every class under BUILD_DIR and rewrite the ones that need it",
    "  classify    classify every class under BUILD_DIR and change no file",
    "  help        print this text",
    "",
    "Options:",
    "      --config <FILE>        read settings from a file",
    "  -f, --format <FORMAT>      json or text",
    "      --check                check what the engine wrote",
    "      --verbose              say more about each class",
    "      --debug                show debug messages",
    "      --allow-monitors       rewrite methods that hold monitors",
    "      --allow-blocking       rewrite methods that make blocking calls",
    "      --include <PREFIX>     rewrite only classes whose names begin so",
    "      --classpath <PATH>     look for classes in a directory or jar as well",
    "      --engine <PROGRAM>     the program that rewrites a class",
    "      --engine-arg <ARG>     an argument that it gets",
    "  -h, --help                 print this text",
    "  -V, --version              print the version"]

namespace Stop

/-- Whether a user got what was asked for. -/
def isAnswer : Stop → Bool
  | helpAsked | versionAsked => true
  | _ => false

/-- The wording for a user. -/
def message : Stop → String
  | helpAsked | nothingGiven => usageText
  | versionAsked => versionText
  | missingCommand => "error: a command is missing"
  | invalidCommand => "error: there is no such command"
  | unknownArgument => "error: unexpected argument"
  | invalidValue => "error: a value is missing or not allowed"
  | unexpectedValue => "error: a flag has a value"
  | repeated => "error: an argument is given more than once"

end Stop

namespace Ending

/-- Zero if all is well, one if a run failed, two if there was no order to do something. -/
def exitCode : Ending → Nat
  | stopped cause => if cause.isAnswer then 0 else 2
  | failed .. => 1
  | classified .. | instrumented .. => 0

/-- A text that ends with its last line. -/
def closed (text : String) : String :=
  if text.toList.getLast? == some '\n' then text else text ++ "\n"

/-- What is written to standard output. -/
def output : Ending → String
  | stopped cause => if cause.isAnswer then closed cause.message else ""
  | failed .. => ""
  | classified report .json => closed report.toJson.pretty
  | classified report .text => closed report.toText
  | instrumented report .json => closed report.toJson.pretty
  | instrumented report .text => closed report.toText

/-- A text after `lead`, with its further lines after `indent`. -/
def indented (lead indent text : String) : String :=
  lead ++ ("\n" ++ indent).intercalate ((Text.splitOn '\n' text.toList).map String.ofList)

/-- The causes of a failure, numbered if there are several. -/
def causeLines : (causes : List String) → List String
  | [cause] => [indented "    " "    " cause]
  | causes => causes.zipIdx.map fun (cause, n) => indented s!"    {n}: " "       " cause

/-- The lines of an ending on standard error. -/
def errorLines : Ending → List String
  | stopped cause => if cause.isAnswer then [] else [cause.message]
  | failed message [] => ["Error: " ++ message]
  | failed message causes => ["Error: " ++ message, "", "Caused by:"] ++ causeLines causes
  | classified .. | instrumented .. => []

/-- The same ending after some time. -/
def timed (milliseconds : Nat) : Ending → Ending
  | instrumented report format => instrumented { report with durationMs := milliseconds } format
  | ending => ending

end Ending

/-! ## The program -/

/-- What can be seen of the program. -/
structure Session (σ : Type) where
  ending : Ending
  /-- What is said before the first message. -/
  warnings : List String := []
  filter : LogFilter := .atLeast .info
  workspace : Workspace σ

/-- What is written to standard error. -/
def Session.errors {σ : Type} (s : Session σ) : String :=
  let lines (texts : List String) : String := String.join (texts.map (· ++ "\n"))
  let shown := (s.workspace.log.filter s.filter.shows).map (·.terminalText)
  lines s.warnings ++ String.join shown ++ lines s.ending.errorLines

/-- Which messages are shown: what the environment says, or else all but the debug messages, which
are shown if the settings say so. -/
def filterFor (e : Environment) (settings : Settings) : LogFilter × List String :=
  match e.logFilter with
  | some text =>
      let (filter, warnings) := LogFilter.parse text
      (filter, warnings.map (·.message))
  | none => (.atLeast (if settings.options.debug then .debug else .info), [])

/-- A failure as an ending. -/
def Ending.ofFailure (f : Failure) : Ending := .failed f.message f.causes

/-- A failure of work on a directory as an ending. -/
def Ending.ofRunFailure (activity directory : String) (f : Failure) : Ending :=
  .failed (activity ++ " classes in " ++ directory) (f.message :: f.causes)

section Performance

variable {σ : Type} (launch : Call → FileTree × σ → Launch × (FileTree × σ))

/-- Does what the settings say. -/
def perform (i : Invocation) (e : Environment) (file : FileConfig) (settings : Settings)
    (w : Workspace σ) : Ending × Workspace σ :=
  let directory := settings.buildDirectory
  match i.command with
  | .classify =>
      match (classify settings Engine.classifyOnly).run w with
      | (.ok db, w) => (.classified (.ofDatabase directory db) i.format, w)
      | (.error f, w) => (.ofRunFailure "Classifying" directory f, w)
  | .instrument =>
      match i.engine.command e file with
      | .error f => (.ofFailure f, w)
      | .ok command =>
          match (runPipeline settings (command.engine launch)).run w with
          | (.ok report, w) => (.instrumented report i.format, w)
          | (.error f, w) => (.ofRunFailure "Instrumenting" directory f, w)

/-- The program. The first argument is its name. -/
def run (arguments : List String) (e : Environment) (w : Workspace σ) : Session σ :=
  match parse (withCommandAfterName arguments) with
  | .error cause => { ending := .stopped cause, workspace := w }
  | .ok i =>
      match FileConfig.find w.files i.config e with
      | .error cause => { ending := .failed cause.message [cause.cause], workspace := w }
      | .ok file =>
          match i.run.settings file with
          | .error f => { ending := .ofFailure f, workspace := w }
          | .ok settings =>
              let (filter, warnings) := filterFor e settings
              let (ending, w) := perform launch i e file settings w
              { ending, warnings, filter, workspace := w }

end Performance

/-- The paths that the program looks at, as far as a file tree tells: that of the configuration
file first, and what it names as soon as the file is there. -/
def pathsToRead (arguments : List String) (e : Environment) (t : FileTree) : List String :=
  match parse (withCommandAfterName arguments) with
  | .error _ => []
  | .ok i =>
      let named := (i.config <|> e.configPath).toList
      match FileConfig.find t i.config e with
      | .error _ => named
      | .ok file =>
          match i.run.settings file with
          | .error _ => named
          | .ok settings => named ++ settings.buildDirectory :: settings.classPath

end FiberWeave.CommandLine
