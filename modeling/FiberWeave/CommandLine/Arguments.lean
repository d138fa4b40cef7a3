import FiberWeave.CommandLine.Parameter

/-!
# Reading a command line

An argument list is read from the front, one argument at a time. A value that is not attached to the
name of its option is the next argument; it is looked at only when the next option or the end of
the command comes, so that of two mistakes the one that shows first is not always the first one.

* `withCommand` — an argument list in which the command may be left out.
* `Token` — how an argument reads by itself.
* `Reading`, `Reading.step` — what was read so far, and one argument more.
* `parse` — what an argument list says.
-/

namespace FiberWeave.CommandLine

/-! ## The command that may be left out -/

/-- Words in the place of the command that ask for a text. -/
def isTextRequest (word : String) : Bool := ["-h", "--help", "-V", "--version"].contains word

/-- Whether an argument is an option of the program with its value attached. -/
def hasAttachedValue (argument : String) : Bool :=
  ["--config=", "--format="].any fun start => start.toList.isPrefixOf argument.toList

/-- Puts the command to instrument in front of an argument list, after the options that may stand
there, unless another command or a request for a text is there. -/
def withCommand : (arguments : List String) → List String
  | [] => ["instrument"]
  | first :: rest =>
      if first == "--config" || first == "--format" || first == "-f" then
        match rest with
        | value :: rest => first :: value :: withCommand rest
        | [] => [first, "instrument"]
      else if hasAttachedValue first then first :: withCommand rest
      else if isCommandWord first || isTextRequest first then first :: rest
      else "instrument" :: first :: rest

/-- The same for an argument list that begins with the name of the program. A list without that name
gets the command in its place. -/
def withCommandAfterName : (arguments : List String) → List String
  | [] => withCommand []
  | name :: rest => name :: withCommand rest

/-! ## Arguments by themselves -/

/-- How an argument reads by itself. -/
inductive Token where
  /-- Two hyphens alone: what follows are values. -/
  | separator
  /-- Two hyphens, a name, and perhaps a value after an equals sign. -/
  | long (name : String) (value : Option String)
  /-- A hyphen and letters. -/
  | cluster (letters : List Char)
  | plain
  deriving DecidableEq, Repr, Inhabited

/-- Reads an argument by itself. A hyphen alone is plain. -/
def Token.ofText (argument : String) : Token :=
  match argument.toList with
  | ['-', '-'] => .separator
  | '-' :: '-' :: text =>
      match Text.cutFirst? '=' text with
      | some (name, value) => .long (String.ofList name) (some (String.ofList value))
      | none => .long (String.ofList text) none
  | '-' :: c :: letters => .cluster (c :: letters)
  | _ => .plain

/-! ## One argument after the other -/

/-- What was read so far in a scope. -/
structure Reading where
  given : Given := {}
  /-- What was read last and is not added yet; a value may still be missing. -/
  pending : Option (Parameter × Option String) := none
  /-- Whether only values follow. -/
  onlyValues : Bool := false
  deriving DecidableEq, Repr, Inhabited

namespace Reading

/-- Adds what was read last. -/
def settle (r : Reading) : Except Stop Reading :=
  match r.pending with
  | none => .ok r
  | some (_, none) => .error .invalidValue
  | some (p, some value) => return { r with given := ← r.given.put p value, pending := none }

/-- Adds a flag. -/
def raise (r : Reading) (f : Flag) : Except Stop Reading := do
  let r ← r.settle
  return { r with given := ← r.given.raise f }

/-- Adds a value. -/
def take (r : Reading) (p : Parameter) (value : String) : Except Stop Reading := do
  let r ← r.settle
  return { r with given := ← r.given.put p value }

/-- Takes note of something that is added later. -/
def hold (r : Reading) (p : Parameter) (value : Option String) : Except Stop Reading := do
  let r ← r.settle
  return { r with pending := some (p, value) }

/-- The option whose value comes next. -/
def awaited? (r : Reading) : Option Parameter :=
  match r.onlyValues, r.pending with
  | false, some (p, none) => some p
  | _, _ => none

/-- Reads letters after a hyphen. What follows the letter of an option is its value. -/
def readCluster (s : Scope) : List Char → Reading → Except Stop Reading
  | [], r => .ok r
  | letter :: rest, r =>
      match s.short? letter, rest with
      | none, _ => .error .unknownArgument
      | some (.flag f), _ => do readCluster s rest (← r.raise f)
      | some (.valued p), [] => r.hold p none
      | some (.valued p), '=' :: value => r.take p (String.ofList value)
      | some (.valued p), value => r.take p (String.ofList value)

/-- Reads a name after two hyphens. -/
def readLong (s : Scope) (name : String) (value : Option String) (r : Reading) :
    Except Stop Reading :=
  match s.named? name, value with
  | none, _ => .error .unknownArgument
  | some (.flag f), none => r.raise f
  | some (.flag _), some _ => .error .unexpectedValue
  | some (.valued p), none => r.hold p none
  | some (.valued p), some value => r.take p value

/-- Whether the place of a parameter without a name is taken. -/
def hasPlaced (r : Reading) : Bool :=
  r.given.run.buildDirectory.isSome || r.pending.any fun (p, _) => p == .buildDirectory

/-- Reads a value without a name. There is one place for such a value, after the command. -/
def readPlain (s : Scope) (argument : String) (r : Reading) : Except Stop Reading :=
  match s with
  | .program =>
      .error (if r.onlyValues && isCommandWord argument then .unknownArgument else .invalidCommand)
  | .command _ =>
      if r.hasPlaced then .error .unknownArgument else r.hold .buildDirectory (some argument)

/-- Reads an argument. An argument for the engine may be any text, even two hyphens. -/
def step (s : Scope) (r : Reading) (argument : String) : Except Stop Reading :=
  match r.awaited?, Token.ofText argument with
  | some .engineArgument, _ => .ok { r with pending := some (.engineArgument, some argument) }
  | some p, .plain => .ok { r with pending := some (p, some argument) }
  | none, .plain => r.readPlain s argument
  | _, token =>
      if r.onlyValues then r.readPlain s argument
      else
        match token with
        | .separator => .ok { r with onlyValues := true }
        | .long name value => r.readLong s name value
        | .cluster letters => r.readCluster s letters
        | .plain => r.readPlain s argument

end Reading

/-! ## Whole command lines -/

/-- What a command line says. -/
structure Invocation where
  command : Command
  run : RunArguments := {}
  engine : EngineArguments := {}
  config : Option String := none
  format : Format := .json
  deriving DecidableEq, Repr, Inhabited

/-- What is given after the name of a command. -/
def readCommand (c : Command) (arguments : List String) : Except Stop Given := do
  let r ← arguments.foldlM (Reading.step (.command c)) {}
  return (← r.settle).given

/-- Where a request for help leads: there is help on each command, and on nothing below. -/
def helpOn : List String → Stop
  | [] => .helpAsked
  | [word] => if isCommandWord word then .helpAsked else .invalidCommand
  | _ => .invalidCommand

/-- A command and what is given after it, with what was read before it. What stands after the
command is read first, and wins. -/
def Invocation.ofParts (c : Command) (before : Reading) (arguments : List String) :
    Except Stop Invocation := do
  let inner ← readCommand c arguments
  let outer ← before.settle
  return {
    command := c
    run := inner.run
    engine := inner.engine
    config := inner.config <|> outer.given.config
    format := (inner.format <|> outer.given.format).getD .json }

/-- Reads arguments up to the command and what follows it. -/
def readProgram : List String → Reading → Except Stop Invocation
  | [], r => do
      let r ← r.settle
      .error (if r.given = {} then .nothingGiven else .missingCommand)
  | argument :: rest, r =>
      if r.onlyValues || r.awaited?.isSome then do
        readProgram rest (← r.step .program argument)
      else if argument == helpWord then .error (helpOn rest)
      else
        match Command.ofWord? argument with
        | some c => Invocation.ofParts c r rest
        | none => do readProgram rest (← r.step .program argument)

/-- What an argument list says, after the name of the program. -/
def parse (arguments : List String) : Except Stop Invocation := readProgram (arguments.drop 1) {}

end FiberWeave.CommandLine
