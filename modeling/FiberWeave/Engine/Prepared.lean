import FiberWeave.Engine.Command
import FiberWeave.FileTree.Change
import FiberWeave.FileTree.Program

/-!
# Engines with prepared answers

Engines that answer from a table, for trying a run out.

* `PreparedProgram` — an external program that answers by class name.
* `PreparedEngine` — an engine that answers by class name, and may first disturb the file tree.
-/

namespace FiberWeave

/-! ## Programs -/

/-- What a prepared program does with a class. -/
structure PreparedRun where
  output : Bytes := []
  errors : Bytes := []
  status : ExitStatus := .code 0
  deriving DecidableEq, Repr, Inhabited

/-- A program that answers by its last argument. -/
structure PreparedProgram where
  path : String
  ignoresInput : Bool := false
  runs : List (String × PreparedRun) := []
  deriving DecidableEq, Repr, Inhabited

/-- A start of a prepared program, and what it read. -/
structure PreparedCall where
  arguments : List String
  input : Option Bytes
  deriving DecidableEq, Repr, Inhabited

namespace PreparedProgram

/-- Runs the program; a class without an answer makes it end badly. -/
def answer (p : PreparedProgram) (className : String) : PreparedRun :=
  match p.runs.find? fun run => run.1 == className with
  | some run => run.2
  | none => { status := .code 9 }

/-- Starts the program and takes note of the call. -/
def launch (p : PreparedProgram) (call : Call) :
    FileTree × List PreparedCall → Launch × (FileTree × List PreparedCall)
  | (t, calls) =>
      if (call.program :: call.arguments).any fun text => text.toList.contains '\x00' then
        (.notStarted .nulInArgument, t, calls)
      else
        match t.start (t.resolve p.path).toOption call.program call.arguments with
        | .error e => (.notStarted e, t, calls)
        | .ok arguments =>
            let run := p.answer (arguments.getLast?.getD "")
            let input := if p.ignoresInput then none else some call.input
            (.ended run.status run.output run.errors (.ok ()), t, calls ++ [⟨arguments, input⟩])

end PreparedProgram

/-! ## Engines -/

/-- What a prepared engine returns. -/
inductive PreparedAnswer where
  | failure (message : String)
  /-- The input with more bytes at its end. -/
  | appended (bytes : Bytes)
  | bytes (bytes : Bytes)
  deriving DecidableEq, Repr, Inhabited

/-- What a prepared engine does with a class. -/
structure PreparedRewrite where
  disturbances : List FileTree.Change := []
  answer : PreparedAnswer := .failure "no output prepared"
  deriving DecidableEq, Repr, Inhabited

/-- A request to a prepared engine. -/
structure PreparedRequest where
  className : String
  bytes : Bytes
  entry : ClassEntry
  deriving DecidableEq, Repr, Inhabited

/-- The tree after changes, where those that are impossible change nothing. -/
def FileTree.disturb (t : FileTree) (changes : List FileTree.Change) : FileTree :=
  changes.foldl (fun t change => (change.apply t).toOption.getD t) t

/-- The engine that answers by class name and takes note of all requests. -/
def preparedEngine (table : List (String × PreparedRewrite)) : Engine (List PreparedRequest) where
  rewrite request w :=
    let prepared := ((table.find? fun row => row.1 == request.className).map (·.2)).getD {}
    let w := { w with
      files := w.files.disturb prepared.disturbances
      engine := w.engine ++ [⟨request.className, request.bytes, request.entry⟩] }
    match prepared.answer with
    | .failure message => (.error (.stated message), w)
    | .appended bytes => (.ok (request.bytes ++ bytes), w)
    | .bytes bytes => (.ok bytes, w)

end FiberWeave
