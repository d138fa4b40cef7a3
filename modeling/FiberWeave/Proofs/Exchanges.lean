import FiberWeave.Proofs.ClassFile.Format
import FiberWeave.Proofs.Treatment

/-!
# What an engine is asked

An engine may keep a record of its requests and answers. The record says in which order classes were
handed to the engine, and with which bytes; otherwise the engine behaves as without it.

* `Exchange`, `Engine.recorded` — the record, and the engine that keeps it.
* `Simulates` — a step with the record does what the step without it does.
* **`runPipeline_recorded`** — so does a whole run.
* `Engine.KeepsFiles` — an engine that does not touch files; `Engine.byName` is one.
* `taskClass` — a class that is to be rewritten; `crowdedBuild` — a build of several such classes.
-/

namespace FiberWeave

variable {σ : Type}

/-- A request, and what the engine answered. -/
structure Exchange where
  request : Request
  answer : Except RewriteFailure Bytes

/-- The workspace with another state of an engine. -/
def Workspace.withEngine {τ : Type} (w : Workspace σ) (engine : τ) : Workspace τ where
  files := w.files
  log := w.log
  engine
  processId := w.processId
  faults := w.faults

/-- The workspace without the record. -/
def Workspace.unrecorded (w : Workspace (σ × List Exchange)) : Workspace σ :=
  w.withEngine w.engine.1

/-- The workspace with an empty record. -/
def Workspace.recording (w : Workspace σ) : Workspace (σ × List Exchange) :=
  w.withEngine (w.engine, [])

/-- The engine with a record of what it was asked and what it answered. -/
def Engine.recorded (engine : Engine σ) : Engine (σ × List Exchange) where
  analyze := engine.analyze
  rewrite request w :=
    let (answer, w') := engine.rewrite request w.unrecorded
    (answer, w'.withEngine (w'.engine, w.engine.2 ++ [⟨request, answer⟩]))

/-- An engine that does not touch files, and leaves alone what files are reached by. -/
structure Engine.KeepsFiles (engine : Engine σ) : Prop where
  files : ∀ request w, (engine.rewrite request w).2.files = w.files
  processId : ∀ request w, (engine.rewrite request w).2.processId = w.processId
  faults : ∀ request w, (engine.rewrite request w).2.faults = w.faults

theorem Engine.KeepsFiles.recorded {engine : Engine σ} (h : engine.KeepsFiles) :
    engine.recorded.KeepsFiles where
  files request w := h.files request w.unrecorded
  processId request w := h.processId request w.unrecorded
  faults request w := h.faults request w.unrecorded

/-! ## Steps with and without a record -/

/-- What a step with the record gives and leaves is what the step without it gives and leaves. -/
def Simulates {α : Type} (m : Action (σ × List Exchange) α) (m' : Action σ α) : Prop :=
  ∀ w, (m.run w).1 = (m'.run w.unrecorded).1 ∧
    (m.run w).2.unrecorded = (m'.run w.unrecorded).2

namespace Simulates

variable {α β : Type}

theorem pure (a : α) : Simulates (σ := σ) (Pure.pure a) (Pure.pure a) := fun _ => ⟨rfl, rfl⟩

theorem throw (failure : Failure) :
    Simulates (σ := σ) (α := α) (MonadExcept.throw failure) (MonadExcept.throw failure) :=
  fun _ => ⟨rfl, rfl⟩

theorem say (remarks : List Remark) :
    Simulates (σ := σ) (Action.say remarks) (Action.say remarks) := fun _ => ⟨rfl, rfl⟩

theorem files : Simulates (σ := σ) Action.files Action.files := fun _ => ⟨rfl, rfl⟩

theorem orEnd (path : String) (x : Except OsError α) :
    Simulates (σ := σ) (Action.orEnd path x) (Action.orEnd path x) := by
  cases x with
  | ok a => exact pure a
  | error e => exact throw _

theorem bind {m : Action (σ × List Exchange) α} {m' : Action σ α}
    {f : α → Action (σ × List Exchange) β} {f' : α → Action σ β} (hm : Simulates m m')
    (hf : ∀ a, Simulates (f a) (f' a)) : Simulates (m >>= f) (m' >>= f') := by
  intro w
  obtain ⟨hresult, hleft⟩ := hm w
  simp only [Action.run_bind]
  rcases hrun : m.run w with ⟨result, left⟩
  rcases hrun' : m'.run w.unrecorded with ⟨result', left'⟩
  rw [hrun, hrun'] at hresult hleft
  obtain rfl : result = result' := hresult
  obtain rfl : left.unrecorded = left' := hleft
  cases result with
  | error failure => exact ⟨rfl, rfl⟩
  | ok a => exact hf a left

/-- A step that begins with a look at the workspace. -/
theorem get {f : Workspace (σ × List Exchange) → Action (σ × List Exchange) α}
    {f' : Workspace σ → Action σ α} (hf : ∀ w, Simulates (f w) (f' w.unrecorded)) :
    Simulates (MonadState.get >>= f) (MonadState.get >>= f') := by
  intro w
  exact hf w w

theorem foldlM {γ : Type} {f : β → γ → Action (σ × List Exchange) β} {f' : β → γ → Action σ β}
    (hf : ∀ b c, Simulates (f b c) (f' b c)) (b : β) (xs : List γ) :
    Simulates (xs.foldlM f b) (xs.foldlM f' b) := by
  induction xs generalizing b with
  | nil => exact pure b
  | cons x rest ih =>
      rw [List.foldlM_cons, List.foldlM_cons]
      exact bind (hf b x) ih

end Simulates

/-! ## Runs with and without a record -/

variable (settings : Settings) (engine : Engine σ) (db : Database) (item : WorkItem)
  (entry : ClassEntry)

theorem recordFile_recorded (b : Database.Builder) (file : ClassFileRef) :
    Simulates (recordFile engine.recorded b file) (recordFile engine b file) := by
  refine .get fun w => .bind (.orEnd _ _) fun bytes => ?_
  simp only [Engine.recorded]
  cases engine.analyze bytes with
  | error e => exact .bind (.say _) fun _ => .pure _
  | ok facts =>
      simp only
      cases b.noteScanned.record? file facts with
      | some b' => exact .pure b'
      | none => exact .bind (.say _) fun _ => .pure _

theorem classify_recorded :
    Simulates (classify settings engine.recorded) (classify settings engine) := by
  refine .bind .files fun t => ?_
  cases Scanner.start? t settings.buildDirectory with
  | none => exact .throw _
  | some scanner =>
      refine .bind (.say _) fun _ => .bind (.say _) fun _ =>
        .bind (.foldlM (recordFile_recorded engine) _ _) fun builder => ?_
      cases settings.options.verbose with
      | true => exact .bind (.say _) fun _ => .pure _
      | false => exact .pure _

theorem onFailure_recorded (failure : RewriteFailure) :
    Simulates (σ := σ) (onFailure entry failure) (onFailure entry failure) := by
  unfold onFailure
  cases FailurePolicy.of entry.hasSuspendPoints with
  | fatal => exact .bind (.say _) fun _ => .throw _
  | tolerate =>
      cases entry.problematic with
      | true => exact .pure _
      | false => exact .bind (.say _) fun _ => .pure _

theorem askEngine_recorded (request : Request) :
    Simulates (askEngine engine.recorded request) (askEngine engine request) :=
  fun _ => ⟨rfl, rfl⟩

theorem putClass_recorded (path : String) (bytes : Bytes) :
    Simulates (σ := σ) (putClass path bytes) (putClass path bytes) := by
  intro w
  unfold putClass
  simp only [Action.run_bind, Action.run_get]
  have hreplace : w.unrecorded.replace path bytes =
      ((w.replace path bytes).1, (w.replace path bytes).2.unrecorded) := rfl
  rw [hreplace]
  cases (w.replace path bytes).1 with
  | ok _ => exact ⟨rfl, rfl⟩
  | error e => exact ⟨rfl, rfl⟩

theorem rewriteItem_recorded : Simulates (rewriteItem settings engine.recorded db item entry)
    (rewriteItem settings engine db item entry) := by
  have hsettle : ∀ before, Simulates
      (askEngine engine.recorded (requestFor settings db item entry before) >>=
        settle item entry before)
      (askEngine engine (requestFor settings db item entry before) >>=
        settle item entry before) := by
    refine fun before => .bind (askEngine_recorded engine _) fun answer => ?_
    cases answer with
    | ok after => exact .bind (putClass_recorded _ _) fun _ => .pure _
    | error failure => exact onFailure_recorded entry failure
  refine .get fun w => .bind (.orEnd _ _) fun before => .bind (.say _) fun _ => ?_
  cases settings.options.verbose with
  | true => exact .bind (.say _) fun _ => hsettle before
  | false => exact hsettle before

theorem applyItem_recorded : Simulates (applyItem settings engine.recorded db item)
    (applyItem settings engine db item) := by
  simp only [applyItem]
  cases settings.inclusions.includes item.name with
  | false => exact .bind (.say _) fun _ => .pure _
  | true =>
      cases ClassName.mayInstrument item.name with
      | false => exact .bind (.say _) fun _ => .pure _
      | true =>
          cases db.get? item.name with
          | none => exact .throw _
          | some entry =>
              cases hrequires : entry.requiresInstrumentation with
              | true =>
                  simp only [hrequires]
                  exact rewriteItem_recorded settings engine db item entry
              | false =>
                  simp only [hrequires]
                  exact .bind (.say _) fun _ => .pure _

/-- **A run with a record** does what the run without it does. -/
theorem runPipeline_recorded :
    Simulates (runPipeline settings engine.recorded) (runPipeline settings engine) := by
  refine .bind (.say _) fun _ => .bind (classify_recorded settings engine) fun db =>
    .bind (.say _) fun _ => .foldlM (fun report item => ?_) _ _
  exact .bind (applyItem_recorded settings engine db item) fun _ => .pure _

/-- What becomes of the classes of a work list is the same with a record. -/
theorem treatAll_recorded (items : List WorkItem) (w : Workspace (σ × List Exchange)) :
    (treatAll settings engine.recorded db items w).done =
        (treatAll settings engine db items w.unrecorded).done ∧
      (treatAll settings engine.recorded db items w).failure =
        (treatAll settings engine db items w.unrecorded).failure := by
  induction items generalizing w with
  | nil => exact ⟨rfl, rfl⟩
  | cons item rest ih =>
      obtain ⟨hresult, hleft⟩ := applyItem_recorded settings engine db item w
      rw [treatAll, treatAll]
      rcases hrun : (applyItem settings engine.recorded db item).run w with ⟨result, left⟩
      rcases hrun' : (applyItem settings engine db item).run w.unrecorded with ⟨result', left'⟩
      rw [hrun, hrun'] at hresult hleft
      obtain rfl : result = result' := hresult
      obtain rfl : left.unrecorded = left' := hleft
      cases result with
      | error failure => exact ⟨rfl, rfl⟩
      | ok outcome =>
          obtain ⟨hdone, hfailure⟩ := ih left
          exact ⟨congrArg _ hdone, hfailure⟩

/-- What becomes of the classes of a run is the same with a record. -/
theorem history_recorded (w : Workspace σ) :
    (history settings engine.recorded w.recording).done = (history settings engine w).done ∧
      (history settings engine.recorded w.recording).failure =
        (history settings engine w).failure := by
  obtain ⟨hresult, hleft⟩ := classify_recorded settings engine (w.recording.say [startRemark])
  change _ = ((classify settings engine).run (w.say [startRemark])).1 at hresult
  change _ = ((classify settings engine).run (w.say [startRemark])).2 at hleft
  unfold history
  rcases hrun : (classify settings engine.recorded).run (w.recording.say [startRemark]) with
    ⟨result, left⟩
  rcases hrun' : (classify settings engine).run (w.say [startRemark]) with ⟨result', left'⟩
  rw [hrun, hrun'] at hresult hleft
  obtain rfl : result = result' := hresult
  obtain rfl : left.unrecorded = left' := hleft
  cases result with
  | error failure => exact ⟨rfl, rfl⟩
  | ok db => exact treatAll_recorded settings engine db _ _

/-- The requests of a run and their answers, in order. -/
def exchanges (settings : Settings) (engine : Engine σ) (w : Workspace σ) : List Exchange :=
  ((runPipeline settings engine.recorded).run w.recording).2.engine.2

theorem exchanges_eq (w : Workspace σ) : exchanges settings engine w =
    (history settings engine.recorded w.recording).after.engine.2 := by
  rw [exchanges, runPipeline_run]

/-- What a run leaves is what the run with a record leaves. -/
theorem runPipeline_after (w : Workspace σ) : ((runPipeline settings engine).run w).2 =
    (history settings engine.recorded w.recording).after.unrecorded := by
  have hleft := (runPipeline_recorded settings engine w.recording).2
  rw [runPipeline_run settings engine.recorded] at hleft
  exact hleft.symm

theorem files_runPipeline (w : Workspace σ) : ((runPipeline settings engine).run w).2.files =
    (history settings engine.recorded w.recording).after.files := by
  rw [runPipeline_after]
  rfl

/-! ### A build of several classes -/

open ClassFile.Format in
/-- A class with one method `run` that may suspend; index 15 is a method `run` of `Z`. `note` is a
text of its own, and `marked` says whether the class was rewritten. -/
def taskClass (name note : String) (marked : Bool) (code : List Instruction) :
    ClassFile.Format.Class where
  minorVersion := 0
  majorVersion := 52
  pool := [
    .classRef 2, .utf8 (ascii name), .utf8 (ascii "run"), .utf8 (ascii "()V"), .utf8 (ascii "Code"),
    .utf8 (ascii "Exceptions"), .utf8 (ascii suspendExecution), .classRef 7,
    .utf8 (ascii "RuntimeVisibleAnnotations"), .utf8 (ascii instrumentedAnnotation),
    .utf8 (ascii note), .classRef 13, .utf8 (ascii "Z"), .nameAndType 3 4, .methodRef 12 14]
  access := 0x21
  thisClass := 1
  superClass := 0
  interfaces := []
  fields := []
  methods := [{
    access := 1
    name := 3
    descriptor := 4
    attributes := [
      ⟨6, .exceptions [8]⟩,
      ⟨5, .code {
        maxStack := 1
        maxLocals := 1
        instructions := code ++ [.plain 0xB1 []]
        handlers := []
        attributes := [] }⟩] }]
  attributes := if marked then [⟨9, .annotations [⟨10, []⟩]⟩] else []

/-- The class file of a class `A` that is to be rewritten. -/
def taskFile : Bytes := (taskClass "A" "" false []).encode

/-- A workspace in which nothing was done yet. -/
def Workspace.fresh (t : FileTree) : Workspace Unit where
  files := t
  engine := ()

/-- The engine that answers by the name of a class: with octets for some of them. -/
def Engine.byName (answer : String → Option Bytes) : Engine Unit where
  rewrite request w := ((answer request.className).elim (.error .noOutput) .ok, w)

theorem Engine.keepsFiles_byName (answer : String → Option Bytes) :
    (Engine.byName answer).KeepsFiles where
  files _ _ := rfl
  processId _ _ := rfl
  faults _ _ := rfl

/-- The file of a class. Those of `A` and `E` call the method of `Z`. -/
def taskOf (name : String) (marked : Bool) : Bytes :=
  (taskClass name "" marked (if name ∈ ["A", "E"] then [.invoke .static 15] else [])).encode

/-- A build of six classes. The file of one of them is elsewhere, and the first name for a temporary
file beside `A.class` is taken. -/
def crowdedBuild : FileTree where
  entries := [
    (["lib"], .directory),
    (["lib", "B.bin"], .file (.bytes (taskOf "B" false)) 0o600),
    (["build"], .directory),
    (["build", "A.class"], .file (.bytes (taskOf "A" false)) Entry.fileMode),
    (["build", "A.class.1.0.tmp"], .file (.bytes []) Entry.fileMode),
    (["build", "B.class"], .link "../lib/B.bin"),
    (["build", "C.class"], .file (.bytes (taskOf "C" false)) Entry.fileMode),
    (["build", "D.class"], .file (.bytes (taskOf "D" false)) Entry.fileMode),
    (["build", "E.class"], .file (.bytes (taskOf "E" false)) Entry.fileMode),
    (["build", "Z.class"], .file (.bytes (taskOf "Z" false)) Entry.fileMode)]

/-- The engine that rewrites the classes with these names. -/
def crowdedEngine (names : List String) : Engine Unit :=
  .byName fun name => if name ∈ names then some (taskOf name true) else none

/-- Settings that include the classes with these names. -/
def crowdedSettings (names : List String) : Settings where
  buildDirectory := "/build"
  inclusions := .ofList names

end FiberWeave
