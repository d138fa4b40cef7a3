import FiberWeave.Engine.Basic
import FiberWeave.Failure
import FiberWeave.Inclusion
import FiberWeave.Replace
import FiberWeave.Report
import FiberWeave.Scanner

/-!
# Runs

A run finds the class files of a build directory, classifies the classes, and has an engine
rewrite those that need it, each in place.

* `Settings` — what a run is told.
* `Action` — a step over a workspace that may end the run. What was done before stays done.
* `classify` — the database of a build directory.
* `applyItem` — one class of the work list.
* `runPipeline` — a whole run.
-/

namespace FiberWeave

/-- What a run is told. -/
structure Settings where
  buildDirectory : String
  options : EngineOptions := {}
  inclusions : InclusionPolicy := {}
  classPath : List String := []
  deriving DecidableEq, Repr, Inhabited

/-- A step over a workspace that may end the run. -/
abbrev Action (σ : Type) := ExceptT Failure (StateM (Workspace σ))

namespace Action

variable {σ : Type}

/-- Writes messages. -/
def say (remarks : List Remark) : Action σ Unit := modify (·.say remarks)

def debug (text : String) : Action σ Unit := say [{ level := .debug, text }]
def info (text : String) : Action σ Unit := say [{ level := .info, text }]
def warn (text : String) : Action σ Unit := say [{ level := .warning, text }]

/-- The file tree as it is now. -/
def files : Action σ FileTree := return (← get).files

/-- What a step on the file at a path gave, or the end of the run. -/
def orEnd {α : Type} (path : String) : Except OsError α → Action σ α
  | .ok a => return a
  | .error e => throw (.io path e)

/-! ### What steps leave -/

@[simp] theorem run_pure {α : Type} (a : α) (w : Workspace σ) :
    (pure a : Action σ α).run w = (.ok a, w) := rfl

@[simp] theorem run_throw {α : Type} (failure : Failure) (w : Workspace σ) :
    (throw failure : Action σ α).run w = (.error failure, w) := rfl

@[simp] theorem run_get (w : Workspace σ) :
    (get : Action σ (Workspace σ)).run w = (.ok w, w) := rfl

@[simp] theorem run_set (w w' : Workspace σ) :
    (set w' : Action σ PUnit).run w = (.ok (), w') := rfl

@[simp] theorem run_say (remarks : List Remark) (w : Workspace σ) :
    (say remarks : Action σ Unit).run w = (.ok (), w.say remarks) := rfl

@[simp] theorem run_files (w : Workspace σ) :
    (files : Action σ FileTree).run w = (.ok w.files, w) := rfl

@[simp] theorem run_orEnd_ok {α : Type} (path : String) (a : α) (w : Workspace σ) :
    (orEnd path (.ok a) : Action σ α).run w = (.ok a, w) := rfl

@[simp] theorem run_orEnd_error {α : Type} (path : String) (e : OsError) (w : Workspace σ) :
    (orEnd path (.error e) : Action σ α).run w = (.error (.io path e), w) := rfl

@[simp] theorem run_bind {α β : Type} (m : Action σ α) (f : α → Action σ β) (w : Workspace σ) :
    (m >>= f).run w =
      match m.run w with
      | (.ok a, w') => (f a).run w'
      | (.error failure, w') => (.error failure, w') := by
  show (match ExceptT.run m w with
    | (x, w') => ExceptT.bindCont f x w') = _
  cases ExceptT.run m w with
  | mk x w' => cases x <;> rfl

end Action

/-! ## Classification -/

section Classification

variable {σ : Type}

/-- Reads a class file and records its class. A file that is no class file, or one of a class that
is there already, is passed over with a message. -/
def recordFile (engine : Engine σ) (b : Database.Builder) (file : ClassFileRef) :
    Action σ Database.Builder := do
  let b := b.noteScanned
  let bytes ← Action.orEnd file.path ((← get).examine file.path)
  match engine.analyze bytes with
  | .error e =>
      Action.warn ("Skipping unreadable class file " ++ file.path ++ ": " ++ e.message)
      return b
  | .ok facts =>
      match b.record? file facts with
      | some b => return b
      | none =>
          Action.debug s!"Class {facts.name} found more than once; keeping the first copy"
          return b

/-- The messages about a class in a run that tells all. -/
def describe (entry : ClassEntry) : List Remark :=
  if entry.problematic then []
  else
    { level := .info, text := entry.name ++ ": " ++ entry.classification.title } ::
      entry.suspendPoints.flatMap fun point =>
        { level := .info, text := s!"  {point.method} calls suspendable {point.target}" } ::
          if entry.suspendableMethods.contains point.method then []
          else
            [{ level := .warning
               text := s!"Method {entry.name}#{point.method} calls suspendable {point.target} "
                 ++ "but is not marked suspendable" }]

/-- The message about a path that is no part of a class path. -/
def ignoredRemark (path : String) : Remark :=
  { level := .debug, text := "Ignoring classpath entry " ++ path, terminalOnly := true }

/-- Finds and classifies the classes of the build directory. No file is changed. -/
def classify (settings : Settings) (engine : Engine σ) : Action σ Database := do
  let t ← Action.files
  match Scanner.start? t settings.buildDirectory with
  | none => throw (.invalidBuildDirectory settings.buildDirectory)
  | some scanner =>
      let found := scanner.drain t
      Action.debug s!"Found {found.length} class files under {scanner.root}"
      let places := scanner.root :: settings.classPath
      let classPath := ClassPath.ofPaths t places
      Action.say ((ClassPath.ignored t places).map ignoredRemark)
      let builder ← found.foldlM (recordFile engine) {}
      let db := builder.finish classPath t (classPath.methodLists t)
      if settings.options.verbose then Action.say (db.entries.flatMap describe)
      return db

end Classification

/-! ## Rewriting -/

section Rewriting

variable {σ : Type}

/-- What becomes of a class whose rewrite failed. -/
inductive FailurePolicy where
  /-- The class would not work: the run ends. -/
  | fatal
  /-- The class works as it is. -/
  | tolerate
  deriving DecidableEq, Repr, Inhabited

/-- A class with calls that may suspend has to be rewritten; any other need not. -/
def FailurePolicy.of (hasSuspendPoints : Bool) : FailurePolicy :=
  if hasSuspendPoints then .fatal else .tolerate

/-- What becomes of a class whose rewrite failed. -/
def onFailure (entry : ClassEntry) (failure : RewriteFailure) : Action σ Outcome := do
  match FailurePolicy.of entry.hasSuspendPoints with
  | .fatal =>
      Action.say [.ofError ("Unable to instrument class " ++ entry.name) [failure.message]]
      throw (.rewrite entry.name failure)
  | .tolerate =>
      if !entry.problematic then
        Action.debug ("Unable to instrument class " ++ entry.name ++ ": " ++ failure.message)
      return .toleratedFailure failure.message

/-- Has the engine answer a request. -/
def askEngine (engine : Engine σ) (request : Request) :
    Action σ (Except RewriteFailure Bytes) := do
  let (answer, w) := engine.rewrite request (← get)
  set w
  return answer

/-- Puts rewritten bytes in the place of a class file, or ends the run. -/
def putClass (path : String) (bytes : Bytes) : Action σ Unit := do
  let (result, w) := (← get).replace path bytes
  set w
  Action.orEnd path result

/-- What the engine is asked about a class. -/
def requestFor (settings : Settings) (db : Database) (item : WorkItem) (entry : ClassEntry)
    (before : Bytes) : Request where
  className := item.name
  bytes := before
  entry
  database := db
  options := settings.options

/-- Does what the answer of the engine asks for. -/
def settle (item : WorkItem) (entry : ClassEntry) (before : Bytes) :
    Except RewriteFailure Bytes → Action σ Outcome
  | .ok after => do
      putClass item.file.path after
      return .rewritten (Digest.ofBytes before) (Digest.ofBytes after)
  | .error failure => onFailure entry failure

/-- Rewrites a class that is to be rewritten. -/
def rewriteItem (settings : Settings) (engine : Engine σ) (db : Database) (item : WorkItem)
    (entry : ClassEntry) : Action σ Outcome := do
  let before ← Action.orEnd item.file.path ((← get).reread item.file.path)
  Action.info s!"TRANSFORM: {item.name} request"
  if settings.options.verbose then
    Action.say (entry.suspendPoints.map fun p =>
      { level := .info
        text := s!"  suspend point in {p.method}: {p.target} @{p.offset}" })
  let answer ← askEngine engine (requestFor settings db item entry before)
  settle item entry before answer

/-- Rewrites one class of the work list in place. -/
def applyItem (settings : Settings) (engine : Engine σ) (db : Database) (item : WorkItem) :
    Action σ Outcome := do
  let name := item.name
  if !settings.inclusions.includes name then
    Action.info s!"class {name} was excluded"
    return .excluded
  else if !ClassName.mayInstrument name then
    Action.info s!"class {name} is never instrumented, skipping"
    return .skipped
  else
    match db.get? name with
    | none => throw (.unclassified name)
    | some entry =>
        if entry.requiresInstrumentation then rewriteItem settings engine db item entry
        else
          Action.info s!"class {name} is {entry.classification.title}, skipping"
          return .skipped

/-- Rewrites a class and adds the outcome to a report. -/
def applyAndReport (settings : Settings) (engine : Engine σ) (db : Database) (report : RunReport)
    (item : WorkItem) : Action σ RunReport := do
  let outcome ← applyItem settings engine db item
  return report.push item.name item.file.path outcome

/-- A whole run. Classes rewritten before a failure stay rewritten. -/
def runPipeline (settings : Settings) (engine : Engine σ) : Action σ RunReport := do
  Action.info "Instrumenting fiber classes..."
  let db ← classify settings engine
  let work := db.workList
  Action.info s!"Instrumenting {work.length} classes..."
  let report := RunReport.start settings.buildDirectory db (work.map (·.name))
  work.foldlM (applyAndReport settings engine db) report

end Rewriting

end FiberWeave
