import FiberWeave.Database
import FiberWeave.Engine.Failure
import FiberWeave.Log
import FiberWeave.Replace

/-!
# Engines

An engine rewrites one class at a time. It may look at the file tree and change it, write
messages, and keep a state of its own.

* `EngineOptions` — what a user allows and asks for.
* `Workspace` — what a run works on: the file tree, the messages so far, the engine's own state.
* `FileFaults` — the steps on files that are made to fail in a run, none by default.
* `Request`, `Engine` — what an engine is asked, and what it does.
* `checkPolicy`, `verify` — rules for classes before and after a rewrite.
* `Engine.classifyOnly` — the engine that rewrites nothing.
-/

namespace FiberWeave

/-- What a user allows and asks for. -/
structure EngineOptions where
  check : Bool := false
  verbose : Bool := false
  debug : Bool := false
  allowMonitors : Bool := false
  allowBlocking : Bool := false
  deriving DecidableEq, Repr, Inhabited

/-- The steps on files that are made to fail in a run, by path. -/
structure FileFaults where
  /-- Reading a class file to classify it. -/
  examine : String → Option OsError := fun _ => none
  /-- Reading it once more to have it rewritten. -/
  reread : String → Option OsError := fun _ => none
  /-- The steps of putting the rewritten class in its place. -/
  replace : String → Replace.Faults := fun _ => {}

/-- What a run works on. The number of the process makes the names of temporary files its own. -/
structure Workspace (σ : Type) where
  files : FileTree
  log : List Remark := []
  engine : σ
  processId : Nat := 1
  faults : FileFaults := {}

namespace Workspace

variable {σ : Type}

/-- Adds messages. -/
def say (w : Workspace σ) (remarks : List Remark) : Workspace σ :=
  { w with log := w.log ++ remarks }

theorem say_say (w : Workspace σ) (remarks later : List Remark) :
    (w.say remarks).say later = w.say (remarks ++ later) := by
  simp [say, List.append_assoc]

@[simp] theorem say_nil (w : Workspace σ) : w.say [] = w := by simp [say]

@[simp] theorem engine_say (w : Workspace σ) (remarks : List Remark) :
    (w.say remarks).engine = w.engine := rfl

/-- The bytes of a file for classification. -/
def examine (w : Workspace σ) (path : String) : Except OsError Bytes :=
  match w.faults.examine path with
  | some e => .error e
  | none => w.files.readFile path

/-- The bytes of a file that is to be rewritten. -/
def reread (w : Workspace σ) (path : String) : Except OsError Bytes :=
  match w.faults.reread path with
  | some e => .error e
  | none => w.files.readFile path

/-- Puts bytes in the place of a file. -/
def replace (w : Workspace σ) (path : String) (bytes : Bytes) :
    Except OsError Unit × Workspace σ :=
  let (result, files) := replaceFile (w.faults.replace path) w.processId w.files path bytes
  (result, { w with files })

end Workspace

/-- What an engine is given to rewrite a class. -/
structure Request where
  className : String
  bytes : Bytes
  entry : ClassEntry
  database : Database
  options : EngineOptions

/-- Reads the facts of a class and rewrites a class. -/
structure Engine (σ : Type) where
  analyze : Bytes → Except ClassFile.Error ClassFacts := ClassFacts.analyze
  rewrite : Request → Workspace σ → Except RewriteFailure Bytes × Workspace σ

/-- Rewrites nothing. -/
def Engine.classifyOnly {σ : Type} : Engine σ where
  rewrite request w := (.error (.classifiedOnly request.className), w)

/-- Refuses a class whose suspendable methods hold monitors or make blocking calls, as far as the
options do not allow it. -/
def checkPolicy (entry : ClassEntry) (options : EngineOptions) : Except RewriteFailure Unit :=
  match options.allowMonitors, entry.monitorMethods with
  | false, method :: _ => .error (.holdsMonitor entry.name method)
  | _, _ =>
      match options.allowBlocking, entry.blockingCalls with
      | false, call :: _ => .error (.blocks entry.name call.method call.target)
      | _, _ => .ok ()

/-- Refuses bytes that are no class file, or that of another class. -/
def verify (className : String) (bytes : Bytes) : Except RewriteFailure Unit :=
  match ClassFile.parse bytes with
  | .error e => .error (.invalidClass className e)
  | .ok c => if c.name == className then .ok () else .error (.misnamed className c.name)

end FiberWeave
