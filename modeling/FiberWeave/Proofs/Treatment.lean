import FiberWeave.Pipeline

/-!
# How a run treats its work list

Every class of the work list is treated in one of a few ways, and the first one whose treatment
fails ends the run.

* `Due` — a class that the engine is asked to rewrite.
* `Treats` — all that can become of a class; **`applyItem_treats`** says that nothing else does.
* `treatAll` — the classes of a work list one after the other, with what became of each.
* `history`, `runPipeline_run` — a run classifies, and then treats the work list.
-/

namespace FiberWeave

variable {σ : Type}

/-- The class is included, its entry says that it is to be rewritten, and its file is read. -/
structure Due (settings : Settings) (db : Database) (item : WorkItem) (w : Workspace σ)
    (entry : ClassEntry) (before : Bytes) : Prop where
  included : settings.inclusions.includes item.name = true
  mayInstrument : ClassName.mayInstrument item.name = true
  classified : db.get? item.name = some entry
  requires : entry.requiresInstrumentation = true
  read : w.reread item.file.path = .ok before

/-- What becomes of a class, and what its treatment leaves. -/
inductive Treats (settings : Settings) (engine : Engine σ) (db : Database) (item : WorkItem)
    (w : Workspace σ) : Except Failure Outcome → Workspace σ → Prop where
  | excluded (remarks : List Remark)
      (hincl : settings.inclusions.includes item.name = false) :
      Treats settings engine db item w (.ok .excluded) (w.say remarks)
  | never (remarks : List Remark) (hincl : settings.inclusions.includes item.name = true)
      (hname : ClassName.mayInstrument item.name = false) :
      Treats settings engine db item w (.ok .skipped) (w.say remarks)
  | unclassified (hincl : settings.inclusions.includes item.name = true)
      (hname : ClassName.mayInstrument item.name = true) (hentry : db.get? item.name = none) :
      Treats settings engine db item w (.error (.unclassified item.name)) w
  | idle {entry : ClassEntry} (remarks : List Remark)
      (hincl : settings.inclusions.includes item.name = true)
      (hname : ClassName.mayInstrument item.name = true) (hentry : db.get? item.name = some entry)
      (hrequires : entry.requiresInstrumentation = false) :
      Treats settings engine db item w (.ok .skipped) (w.say remarks)
  | unread {entry : ClassEntry} {cause : OsError}
      (hincl : settings.inclusions.includes item.name = true)
      (hname : ClassName.mayInstrument item.name = true) (hentry : db.get? item.name = some entry)
      (hrequires : entry.requiresInstrumentation = true)
      (hread : w.reread item.file.path = .error cause) :
      Treats settings engine db item w (.error (.io item.file.path cause)) w
  | rewritten {entry : ClassEntry} {before after : Bytes} {w₁ w₂ : Workspace σ}
      (remarks : List Remark) (hdue : Due settings db item w entry before)
      (hanswer : engine.rewrite (requestFor settings db item entry before) (w.say remarks) =
        (.ok after, w₁))
      (hput : w₁.replace item.file.path after = (.ok (), w₂)) :
      Treats settings engine db item w
        (.ok (.rewritten (Digest.ofBytes before) (Digest.ofBytes after))) w₂
  | unplaced {entry : ClassEntry} {before after : Bytes} {cause : OsError} {w₁ w₂ : Workspace σ}
      (remarks : List Remark) (hdue : Due settings db item w entry before)
      (hanswer : engine.rewrite (requestFor settings db item entry before) (w.say remarks) =
        (.ok after, w₁))
      (hput : w₁.replace item.file.path after = (.error cause, w₂)) :
      Treats settings engine db item w (.error (.io item.file.path cause)) w₂
  | fatal {entry : ClassEntry} {before : Bytes} {failure : RewriteFailure} {w₁ : Workspace σ}
      (remarks remarks' : List Remark) (hdue : Due settings db item w entry before)
      (hanswer : engine.rewrite (requestFor settings db item entry before) (w.say remarks) =
        (.error failure, w₁))
      (hpoints : entry.hasSuspendPoints = true) :
      Treats settings engine db item w (.error (.rewrite entry.name failure)) (w₁.say remarks')
  | tolerated {entry : ClassEntry} {before : Bytes} {failure : RewriteFailure} {w₁ : Workspace σ}
      (remarks remarks' : List Remark) (hdue : Due settings db item w entry before)
      (hanswer : engine.rewrite (requestFor settings db item entry before) (w.say remarks) =
        (.error failure, w₁))
      (hpoints : entry.hasSuspendPoints = false) :
      Treats settings engine db item w (.ok (.toleratedFailure failure.message))
        (w₁.say remarks')

/-- Messages about a failure that do or do not end the run. -/
theorem onFailure_run (entry : ClassEntry) (failure : RewriteFailure) (w : Workspace σ) :
    ∃ remarks, (onFailure entry failure).run w =
      (if entry.hasSuspendPoints then .error (.rewrite entry.name failure)
        else .ok (.toleratedFailure failure.message), w.say remarks) := by
  unfold onFailure FailurePolicy.of
  cases entry.hasSuspendPoints with
  | true => exact ⟨_, rfl⟩
  | false =>
      cases entry.problematic with
      | true => exact ⟨[], by simp⟩
      | false => exact ⟨_, rfl⟩

/-- What follows the answer of the engine: its bytes are put in place, or its failure is judged. -/
theorem settle_treats {settings : Settings} {db : Database} {item : WorkItem} {w : Workspace σ}
    {entry : ClassEntry} {before : Bytes} (engine : Engine σ)
    (hdue : Due settings db item w entry before) (remarks : List Remark) :
    let step : Action σ Outcome := do
      let answer ← askEngine engine (requestFor settings db item entry before)
      settle item entry before answer
    Treats settings engine db item w (step.run (w.say remarks)).1 (step.run (w.say remarks)).2 := by
  intro step
  rcases hanswer : engine.rewrite (requestFor settings db item entry before) (w.say remarks) with
    ⟨answer, w₁⟩
  cases answer with
  | ok after =>
      rcases hput : w₁.replace item.file.path after with ⟨result, w₂⟩
      cases result with
      | ok _ =>
          simpa [step, askEngine, settle, putClass, hanswer, hput] using
            .rewritten remarks hdue hanswer hput
      | error cause =>
          simpa [step, askEngine, settle, putClass, hanswer, hput] using
            .unplaced remarks hdue hanswer hput
  | error failure =>
      obtain ⟨remarks', hrun⟩ := onFailure_run entry failure w₁
      cases hpoints : entry.hasSuspendPoints with
      | true =>
          simpa [step, askEngine, settle, hanswer, hrun, hpoints] using
            .fatal remarks remarks' hdue hanswer hpoints
      | false =>
          simpa [step, askEngine, settle, hanswer, hrun, hpoints] using
            .tolerated remarks remarks' hdue hanswer hpoints

/-- **Nothing else becomes of a class** than what `Treats` says. -/
theorem applyItem_treats (settings : Settings) (engine : Engine σ) (db : Database)
    (item : WorkItem) (w : Workspace σ) :
    Treats settings engine db item w ((applyItem settings engine db item).run w).1
      ((applyItem settings engine db item).run w).2 := by
  simp only [applyItem]
  cases hincl : settings.inclusions.includes item.name with
  | false => exact .excluded _ hincl
  | true =>
      cases hname : ClassName.mayInstrument item.name with
      | false => exact .never _ hincl hname
      | true =>
          cases hentry : db.get? item.name with
          | none => exact .unclassified hincl hname hentry
          | some entry =>
              cases hrequires : entry.requiresInstrumentation with
              | false =>
                  simp only [hrequires]
                  exact .idle _ hincl hname hentry hrequires
              | true =>
                  simp only [hrequires, Bool.not_true, Bool.false_eq_true, if_false, if_true,
                    rewriteItem]
                  cases hread : w.reread item.file.path with
                  | error cause => simpa [hread] using .unread hincl hname hentry hrequires hread
                  | ok before =>
                      have hsettle := settle_treats engine
                        (⟨hincl, hname, hentry, hrequires, hread⟩ : Due _ _ _ _ _ before)
                      cases settings.options.verbose with
                      | false => simpa [hread, Action.info] using hsettle _
                      | true => simpa [hread, Action.info, Workspace.say_say] using hsettle _

/-! ## Work lists -/

/-- What became of the classes of a work list, until one of them ended the run. -/
structure History (σ : Type) where
  done : List (WorkItem × Outcome) := []
  failure : Option Failure := none
  after : Workspace σ

/-- Treats classes one after the other, until one of them ends the run. -/
def treatAll (settings : Settings) (engine : Engine σ) (db : Database) :
    List WorkItem → Workspace σ → History σ
  | [], w => { after := w }
  | item :: rest, w =>
      match (applyItem settings engine db item).run w with
      | (.error failure, w') => { failure := some failure, after := w' }
      | (.ok outcome, w') =>
          let later := treatAll settings engine db rest w'
          { later with done := (item, outcome) :: later.done }

/-- Adds outcomes to a report. -/
def RunReport.pushAll (report : RunReport) (done : List (WorkItem × Outcome)) : RunReport :=
  done.foldl (fun r (item, outcome) => r.push item.name item.file.path outcome) report

/-- The result of a run that classified its classes. -/
def History.result (h : History σ) (report : RunReport) : Except Failure RunReport :=
  match h.failure with
  | some failure => .error failure
  | none => .ok (report.pushAll h.done)

theorem foldlM_applyAndReport (settings : Settings) (engine : Engine σ) (db : Database)
    (items : List WorkItem) (report : RunReport) (w : Workspace σ) :
    (items.foldlM (applyAndReport settings engine db) report).run w =
      ((treatAll settings engine db items w).result report,
        (treatAll settings engine db items w).after) := by
  induction items generalizing report w with
  | nil => rfl
  | cons item rest ih =>
      rw [List.foldlM_cons, treatAll]
      rcases hrun : (applyItem settings engine db item).run w with ⟨result, w'⟩
      cases result with
      | error failure => simp [applyAndReport, hrun, History.result]
      | ok outcome =>
          simp only [applyAndReport, Action.run_bind, hrun, Action.run_pure, ih]
          rfl

/-- The line of a report about a class. -/
def lineOf (done : WorkItem × Outcome) : ClassOutcome := ⟨done.1.name, done.1.file.path, done.2⟩

namespace Outcome

/-- Whether a class was rewritten. -/
def isRewritten : Outcome → Bool
  | rewritten .. => true
  | _ => false

/-- Whether a class was left out. -/
def isExcluded : Outcome → Bool
  | excluded | skipped => true
  | _ => false

/-- Whether the rewrite of a class failed without harm. -/
def isTolerated : Outcome → Bool
  | toleratedFailure _ => true
  | _ => false

end Outcome

/-- A report with outcomes added: the counters count the outcomes of each kind. -/
theorem pushAll_eq (report : RunReport) (done : List (WorkItem × Outcome)) :
    report.pushAll done =
      { report with
        rewritten := report.rewritten + done.countP fun d => d.2.isRewritten
        excluded := report.excluded + done.countP fun d => d.2.isExcluded
        toleratedFailures := report.toleratedFailures + done.countP fun d => d.2.isTolerated
        classes := report.classes ++ done.map lineOf } := by
  induction done generalizing report with
  | nil => simp [RunReport.pushAll]
  | cons d rest ih =>
      obtain ⟨item, outcome⟩ := d
      change (report.push item.name item.file.path outcome).pushAll rest = _
      rw [ih]
      cases outcome <;>
        simp [RunReport.push, RunReport.count, Outcome.isRewritten, Outcome.isExcluded,
          Outcome.isTolerated, lineOf, Nat.add_assoc, Nat.add_comm 1]

/-- The classes that were treated come first in the work list. -/
theorem treated_first (settings : Settings) (engine : Engine σ) (db : Database)
    (items : List WorkItem) (w : Workspace σ) :
    (treatAll settings engine db items w).done.map Prod.fst <+: items := by
  induction items generalizing w with
  | nil => exact List.prefix_rfl
  | cons item rest ih =>
      rw [treatAll]
      rcases (applyItem settings engine db item).run w with ⟨result, w'⟩
      cases result with
      | error failure => exact List.nil_prefix
      | ok outcome => exact List.cons_prefix_cons.2 ⟨rfl, ih w'⟩

/-! ## Runs -/

/-- The message at the beginning of a run. -/
def startRemark : Remark := { level := .info, text := "Instrumenting fiber classes..." }

/-- The message before the work list is treated. -/
def workRemark (db : Database) : Remark :=
  { level := .info, text := s!"Instrumenting {db.workList.length} classes..." }

/-- What became of the classes of a run. If they cannot be classified, none is treated. -/
def history (settings : Settings) (engine : Engine σ) (w : Workspace σ) : History σ :=
  match (classify settings engine).run (w.say [startRemark]) with
  | (.error failure, w') => { failure := some failure, after := w' }
  | (.ok db, w') => treatAll settings engine db db.workList (w'.say [workRemark db])

/-- The report of a run before any class was treated. -/
def reportOf (settings : Settings) (db : Database) : RunReport :=
  RunReport.start settings.buildDirectory db (db.workList.map (·.name))

/-- A run classifies, and then treats the work list. -/
theorem runPipeline_run (settings : Settings) (engine : Engine σ) (w : Workspace σ) :
    (runPipeline settings engine).run w =
      (match ((classify settings engine).run (w.say [startRemark])).1 with
        | .error failure => .error failure
        | .ok db => (history settings engine w).result (reportOf settings db),
        (history settings engine w).after) := by
  simp only [runPipeline, history, startRemark, Action.info, Action.run_bind, Action.run_say]
  rcases (classify settings engine).run (w.say [_]) with ⟨result, w'⟩
  cases result with
  | error failure => rfl
  | ok db => exact foldlM_applyAndReport ..

end FiberWeave
