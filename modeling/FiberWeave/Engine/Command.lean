import FiberWeave.Engine.Basic
import FiberWeave.Text.Utf8

/-!
# External engines

An external program is started once for each class. It gets the bytes of the class on its standard
input and writes the rewritten bytes to its standard output; the lines on its standard error are
messages.

* `Call`, `Launch` — how a program is started, and what came of it.
* `Launch.remarks`, `Launch.verdict` — the messages of a program, and what it made of the class.
* `EngineCommand` — a program and its arguments; `EngineCommand.engine` is the engine that runs it.
-/

namespace FiberWeave

/-- A start of a program. -/
structure Call where
  program : String
  arguments : List String
  input : Bytes
  deriving DecidableEq, Repr, Inhabited

/-- What came of the start of a program. -/
inductive Launch where
  | notStarted (cause : OsError)
  /-- The program ran, but what it wrote could not be collected. -/
  | notFinished (cause : OsError)
  | ended (status : ExitStatus) (output errors : Bytes) (sent : Except OsError Unit)

namespace Launch

/-- The messages that a program wrote. -/
def remarks : Launch → List Remark
  | ended _ _ errors _ => Remark.ofText (Text.Utf8.decodeLossy errors)
  | _ => []

/-- The last message that a program wrote, trimmed, or nothing if it wrote none. -/
def lastMessage (errors : Bytes) : String :=
  let lines := (Text.lines (Text.Utf8.decodeLossy errors)).filter fun l => !Text.isBlankText l
  match lines.getLast? with
  | some line => String.ofList (Text.trim (Remark.parseLine line).2)
  | none => ""

/-- What a program made of a class: it must end well, have been sent the class unless it closed
its input itself, and write something, which is looked at if `check` is set. -/
def verdict (program className : String) (check : Bool) : Launch → Except RewriteFailure Bytes
  | notStarted cause => .error (.notStarted program cause)
  | notFinished cause => .error (.notFinished cause)
  | ended status output errors sent =>
      if !status.isSuccess then .error (.ended status (lastMessage errors))
      else
        match sent with
        | .error cause =>
            if cause = .brokenPipe then accept output else .error (.notSent cause)
        | .ok () => accept output
where
  accept (output : Bytes) : Except RewriteFailure Bytes :=
    if output.isEmpty then .error .noOutput
    else if check then do verify className output; return output
    else .ok output

end Launch

/-- A program that rewrites classes, and the arguments that it always gets. -/
structure EngineCommand where
  program : String
  arguments : List String := []
  deriving DecidableEq, Repr, Inhabited

namespace EngineCommand

/-- The flags that hand options on. -/
def flags (options : EngineOptions) : List String :=
  [(options.check, "--check"), (options.verbose, "--verbose"), (options.debug, "--debug"),
    (options.allowMonitors, "--allow-monitors"),
    (options.allowBlocking, "--allow-blocking")].filterMap fun (enabled, flag) =>
      if enabled then some flag else none

/-- How the program is started for a class. -/
def callFor (command : EngineCommand) (request : Request) : Call where
  program := command.program
  arguments := command.arguments ++ flags request.options ++ [request.className]
  input := request.bytes

/-- The engine that runs a program, where `launch` starts it. A class that the rules refuse is
not sent to it. -/
def engine {σ : Type} (command : EngineCommand)
    (launch : Call → FileTree × σ → Launch × (FileTree × σ)) : Engine σ where
  rewrite request w :=
    match checkPolicy request.entry request.options with
    | .error e => (.error e, w)
    | .ok () =>
        let (outcome, files, state) := launch (command.callFor request) (w.files, w.engine)
        (outcome.verdict command.program request.className request.options.check,
          { w.say outcome.remarks with files, engine := state })

end EngineCommand

end FiberWeave
