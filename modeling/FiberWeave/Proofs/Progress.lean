import FiberWeave.Proofs.Classification
import FiberWeave.Proofs.Exchanges

/-!
# How far a run has come

Between two classes of its work list, a run has replaced some files and changed nothing else. What
it reads and replaces next is therefore what it would have read and replaced at its beginning.

* `Progress` — a workspace after some rewrites.
* `Progress.reread`, `Progress.replace_result` — files that were not rewritten are as at the
  beginning.
* `Progress.rewrite`, `Progress.unplaced` — a replacement that succeeded, and one that failed.
-/

namespace FiberWeave

open FileTree (Rewrite Frame Separate)

variable {σ τ : Type}

/-- The workspace `w` differs from `w₀` in files that were rewritten, in messages, and in the state
of the engine. -/
structure Progress (w₀ : Workspace σ) (w : Workspace τ) (rewrites : List Rewrite) : Prop where
  frame : Frame w₀.files w.files rewrites
  processId : w.processId = w₀.processId
  faults : w.faults = w₀.faults

namespace Progress

variable {w₀ : Workspace σ} {w : Workspace τ} {rewrites : List Rewrite} {path : String}
  {paths : List String} {bytes : Bytes}

theorem refl (w : Workspace σ) (engine : τ) : Progress w (w.withEngine engine) [] :=
  ⟨.refl w.files, rfl, rfl⟩

theorem say (p : Progress w₀ w rewrites) (remarks : List Remark) :
    Progress w₀ (w.say remarks) rewrites :=
  ⟨p.frame, p.processId, p.faults⟩

/-- An engine that does not touch files may do what it likes. -/
theorem asked (p : Progress w₀ w rewrites) {engine : Engine τ} (hkeeps : engine.KeepsFiles)
    (request : Request) : Progress w₀ (engine.rewrite request w).2 rewrites where
  frame := by
    rw [hkeeps.files]
    exact p.frame
  processId := (hkeeps.processId request w).trans p.processId
  faults := (hkeeps.faults request w).trans p.faults

/-- An engine that keeps a record adds its answer to it. -/
theorem answered {v v₁ : Workspace (σ × List Exchange)} (p : Progress w₀ v rewrites)
    {engine : Engine σ} (hkeeps : engine.KeepsFiles) {request : Request} {remarks : List Remark}
    {answer : Except RewriteFailure Bytes}
    (hanswer : engine.recorded.rewrite request (v.say remarks) = (answer, v₁)) :
    Progress w₀ v₁ rewrites ∧ v₁.engine.2 = v.engine.2 ++ [⟨request, answer⟩] := by
  have hasked := (p.say remarks).asked hkeeps.recorded request
  rw [hanswer] at hasked
  refine ⟨hasked, ?_⟩
  obtain ⟨rfl, rfl⟩ := Prod.mk.inj hanswer
  rfl

/-- The next file is read as at the beginning. -/
theorem reread (p : Progress w₀ w rewrites)
    (hsep : Separate w₀.files (rewrites.map Rewrite.path ++ path :: paths)) :
    w.reread path = w₀.reread path := by
  obtain ⟨goal, hleads, hgoal⟩ := hsep.next
  unfold Workspace.reread
  rw [p.faults, FileTree.readFile_eq_of_stat (p.frame.stat hsep.leadToFiles hleads hgoal)]

/-- The next file is replaced, or not, as at the beginning. -/
theorem replace_result (p : Progress w₀ w rewrites)
    (hsep : Separate w₀.files (rewrites.map Rewrite.path ++ path :: paths)) (bytes : Bytes) :
    (w.replace path bytes).1 = (w₀.replace path bytes).1 := by
  obtain ⟨goal, hleads, hgoal⟩ := hsep.next
  unfold Workspace.replace replaceFile
  rw [p.faults, p.processId]
  exact p.frame.run_result hsep.leadToFiles hleads hgoal

/-- The next file is rewritten. -/
theorem rewrite (p : Progress w₀ w rewrites)
    (hsep : Separate w₀.files (rewrites.map Rewrite.path ++ path :: paths))
    (h : (w.replace path bytes).1 = .ok ()) :
    Progress w₀ (w.replace path bytes).2 (rewrites ++ [⟨path, bytes⟩]) := by
  obtain ⟨goal, hleads, hgoal⟩ := hsep.next
  exact ⟨p.frame.rewrite hsep.leadToFiles hleads hgoal h, p.processId, p.faults⟩

/-- A file that cannot be replaced is left as it is. -/
theorem unplaced (p : Progress w₀ w rewrites) {cause : OsError}
    (hremove : (w₀.faults.replace path).remove = none)
    (h : (w.replace path bytes).1 = .error cause) :
    Progress w₀ (w.replace path bytes).2 rewrites := by
  rw [← p.faults] at hremove
  have hfiles : (w.replace path bytes).2.files = w.files := Replace.run_error hremove h
  exact ⟨hfiles ▸ p.frame, p.processId, p.faults⟩

end Progress

/-! ## Before the first class -/

section Begin

variable (settings : Settings) (engine : Engine σ) (w : Workspace σ)

/-- The result of a run is that of its classification, or else that of treating the work list. -/
theorem runPipeline_result : ((runPipeline settings engine).run w).1 =
    match classified settings engine w with
    | .error failure => .error failure
    | .ok db => (history settings engine w).result (reportOf settings db) := by
  obtain ⟨remarks, hrun⟩ := classify_run settings engine (w.say [startRemark])
  rw [runPipeline_run, hrun]
  rfl

/-- A run ends well if its classes can be classified and none of them ends it; then its report has
the outcomes of all. -/
theorem runPipeline_eq_ok_iff {report : RunReport} :
    ((runPipeline settings engine).run w).1 = .ok report ↔
      ∃ db, classified settings engine w = .ok db ∧ (history settings engine w).failure = none ∧
        report = (reportOf settings db).pushAll (history settings engine w).done := by
  rw [runPipeline_result]
  cases classified settings engine w with
  | error failure => simp
  | ok db =>
      simp only [History.result, Except.ok.injEq, exists_eq_left']
      cases (history settings engine w).failure with
      | some failure => simp
      | none => simp [eq_comm]

/-- The report of a run says what became of each class. -/
theorem classes_of_ok {report : RunReport}
    (h : ((runPipeline settings engine).run w).1 = .ok report) :
    report.classes = (history settings engine w).done.map lineOf := by
  obtain ⟨db, _, _, rfl⟩ := (runPipeline_eq_ok_iff settings engine w).1 h
  rw [pushAll_eq]
  rfl

/-- If the classes cannot be classified, the run ends with nothing done. -/
theorem history_of_error {failure : Failure} (h : classified settings engine w = .error failure) :
    ∃ remarks, history settings engine w =
      { failure := some failure, after := w.say remarks } := by
  obtain ⟨remarks, hrun⟩ := classify_run settings engine (w.say [startRemark])
  refine ⟨[startRemark] ++ remarks, ?_⟩
  have hsaid : classified settings engine (w.say [startRemark]) = .error failure := h
  rw [history, hrun, hsaid, Workspace.say_say]

/-- Otherwise only messages were written before the first class is treated. -/
theorem history_of_classified {db : Database} (h : classified settings engine w = .ok db) :
    ∃ remarks, history settings engine w =
      treatAll settings engine db db.workList (w.say remarks) := by
  obtain ⟨remarks, hrun⟩ := classify_run settings engine (w.say [startRemark])
  refine ⟨[startRemark] ++ remarks ++ [workRemark db], ?_⟩
  have hsaid : classified settings engine (w.say [startRemark]) = .ok db := h
  rw [history, hrun, hsaid]
  simp only [Workspace.say_say]

/-- A record does not change what is found. -/
theorem classified_recorded :
    classified settings engine.recorded w.recording = classified settings engine w := rfl

end Begin

end FiberWeave
