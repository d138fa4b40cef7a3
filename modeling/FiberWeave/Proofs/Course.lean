import FiberWeave.Proofs.Progress
import FiberWeave.Proofs.Revision
import Mathlib.Data.List.Forall2

/-!
# The course of a run

What becomes of a class is told with what the engine answered and what was rewritten, in terms of the
tree at the beginning of the run.  Nothing is asked of faults here: a run that cannot replace a class
file may also leave its temporary file behind.

* `Engine.Answers` — something that an engine may answer to a request.
* `Became` — what becomes of a class, and what is rewritten by it.
* `Leaves` — a tree with some files rewritten, and perhaps a temporary file more.
* `Treats.became`, **`treatAll_became`** — the treatment of one class, and that of a work list by
  induction on it.
* **`history_became`** — a whole run; `children_runPipeline` — what directories list after it.
-/

namespace FiberWeave

open FileTree (Rewrite Frame Separate Leftover LeadsToFile Revised)

variable {σ : Type}

/-- The engine may answer this to a request. -/
def Engine.Answers (engine : Engine σ) (request : Request) (answer : Except RewriteFailure Bytes) :
    Prop :=
  ∃ w, (engine.rewrite request w).1 = answer

/-- What becomes of a class, and what is rewritten by it, with the tree as it was at the
beginning. -/
inductive Became (settings : Settings) (engine : Engine σ) (db : Database) (w : Workspace σ)
    (item : WorkItem) : Outcome → List Rewrite → Prop where
  | excluded (hincl : settings.inclusions.includes item.name = false) :
      Became settings engine db w item .excluded []
  | never (hname : ClassName.mayInstrument item.name = false) :
      Became settings engine db w item .skipped []
  | idle {entry : ClassEntry} (hentry : db.get? item.name = some entry)
      (hrequires : entry.requiresInstrumentation = false) :
      Became settings engine db w item .skipped []
  | tolerated {entry : ClassEntry} {before : Bytes} {failure : RewriteFailure}
      (hdue : Due settings db item w entry before)
      (hanswer : engine.Answers (requestFor settings db item entry before) (.error failure))
      (hpoints : entry.hasSuspendPoints = false) :
      Became settings engine db w item (.toleratedFailure failure.message) []
  | rewritten {entry : ClassEntry} {before after : Bytes}
      (hdue : Due settings db item w entry before)
      (hanswer : engine.Answers (requestFor settings db item entry before) (.ok after)) :
      Became settings engine db w item
        (.rewritten (Digest.ofBytes before) (Digest.ofBytes after)) [⟨item.file.path, after⟩]

/-- A tree with some files rewritten, and perhaps a temporary file more. -/
def Leaves (t t' : FileTree) (rewrites : List Rewrite) : Prop :=
  ∃ mid, Frame t mid rewrites ∧ (t' = mid ∨ Leftover mid t')

/-! ## One class -/

variable {settings : Settings} {engine : Engine σ} {db : Database} {item : WorkItem}
  {w₀ w w' : Workspace σ} {rewrites : List Rewrite} {paths : List String} {path : String}
  {bytes : Bytes}

namespace Progress

theorem leaves (p : Progress w₀ w rewrites) : Leaves w₀.files w.files rewrites :=
  ⟨w.files, p.frame, .inl rfl⟩

/-- An engine that answers leaves files as they are. -/
theorem heard (p : Progress w₀ w rewrites) (hkeeps : engine.KeepsFiles) {request : Request}
    {remarks : List Remark} {answer : Except RewriteFailure Bytes} {w₁ : Workspace σ}
    (hanswer : engine.rewrite request (w.say remarks) = (answer, w₁)) :
    Progress w₀ w₁ rewrites ∧ w₁.files = w.files := by
  obtain rfl : (engine.rewrite request (w.say remarks)).2 = w₁ := by rw [hanswer]
  exact ⟨(p.say remarks).asked hkeeps request, hkeeps.files request (w.say remarks)⟩

/-- What is due is what would have been due at the beginning. -/
theorem due (p : Progress w₀ w rewrites)
    (hsep : Separate w₀.files (rewrites.map Rewrite.path ++ item.file.path :: paths))
    {entry : ClassEntry} (h : Due settings db item w entry bytes) :
    Due settings db item w₀ entry bytes :=
  ⟨h.included, h.mayInstrument, h.classified, h.requires, (p.reread hsep).symm.trans h.read⟩

/-- A file that cannot be replaced is left as it is, perhaps beside a temporary file. -/
theorem failed (p : Progress w₀ w rewrites) {cause : OsError}
    (h : (w.replace path bytes).1 = .error cause) :
    Leaves w₀.files (w.replace path bytes).2.files rewrites := by
  rcases Replace.run_failed h with hsame | ⟨_, hleft⟩
  · exact ⟨_, p.frame, .inl hsame⟩
  · exact ⟨_, p.frame, .inr hleft⟩

end Progress

/-- The treatment of one class, as told from the beginning. -/
theorem Treats.became {result : Except Failure Outcome}
    (h : Treats settings engine db item w result w') (hkeeps : engine.KeepsFiles)
    (p : Progress w₀ w rewrites)
    (hsep : Separate w₀.files (rewrites.map Rewrite.path ++ item.file.path :: paths)) :
    (∃ outcome new, result = .ok outcome ∧ Became settings engine db w₀ item outcome new ∧
        Progress w₀ w' (rewrites ++ new) ∧ w'.files.locations = w.files.locations) ∨
      ∃ failure, result = .error failure ∧ Leaves w₀.files w'.files rewrites ∧
        ((∀ path, (w₀.faults.replace path).remove = none) →
          w'.files.locations = w.files.locations) := by
  have hidle : Progress w₀ w (rewrites ++ []) := by rwa [List.append_nil]
  cases h with
  | excluded remarks hincl =>
      exact .inl ⟨_, [], rfl, .excluded hincl, hidle.say remarks, rfl⟩
  | never remarks _ hname => exact .inl ⟨_, [], rfl, .never hname, hidle.say remarks, rfl⟩
  | idle remarks _ _ hentry hrequires =>
      exact .inl ⟨_, [], rfl, .idle hentry hrequires, hidle.say remarks, rfl⟩
  | unclassified => exact .inr ⟨_, rfl, p.leaves, fun _ => rfl⟩
  | unread => exact .inr ⟨_, rfl, p.leaves, fun _ => rfl⟩
  | @rewritten entry before after w₁ _ remarks hdue hanswer hput =>
      obtain ⟨hasked, hfiles⟩ := p.heard hkeeps hanswer
      obtain ⟨hok, rfl⟩ := Prod.mk.inj hput
      refine .inl ⟨_, _, rfl, .rewritten (p.due hsep hdue) ⟨w.say remarks, by rw [hanswer]⟩,
        hasked.rewrite hsep hok, ?_⟩
      exact (Replace.locations_of_ok hok).trans (congrArg FileTree.locations hfiles)
  | unplaced remarks hdue hanswer hput =>
      obtain ⟨hasked, hfiles⟩ := p.heard hkeeps hanswer
      obtain ⟨herror, rfl⟩ := Prod.mk.inj hput
      refine .inr ⟨_, rfl, hasked.failed herror, fun hremove => ?_⟩
      have hremove := hasked.faults ▸ hremove item.file.path
      exact congrArg FileTree.locations ((Replace.run_error hremove herror).trans hfiles)
  | fatal remarks remarks' hdue hanswer =>
      obtain ⟨hasked, hfiles⟩ := p.heard hkeeps hanswer
      exact .inr ⟨_, rfl, (hasked.say remarks').leaves,
        fun _ => congrArg FileTree.locations hfiles⟩
  | tolerated remarks remarks' hdue hanswer hpoints =>
      obtain ⟨hasked, hfiles⟩ := p.heard hkeeps hanswer
      refine .inl ⟨_, [], rfl, .tolerated (p.due hsep hdue) ⟨w.say remarks, by rw [hanswer]⟩
        hpoints, ?_, congrArg FileTree.locations hfiles⟩
      rw [List.append_nil]
      exact hasked.say remarks'

theorem Became.paths_sublist {outcome : Outcome} {new : List Rewrite}
    (h : Became settings engine db w item outcome new) :
    (new.map Rewrite.path).Sublist [item.file.path] := by
  cases h with
  | rewritten => exact List.Sublist.refl _
  | _ => exact List.nil_sublist _

/-! ## Work lists -/

/-- The treatment of a work list, as told from the beginning. -/
theorem treatAll_became (hkeeps : engine.KeepsFiles) (items : List WorkItem)
    (p : Progress w₀ w rewrites)
    (hsep : Separate w₀.files (rewrites.map Rewrite.path ++ items.map fun i => i.file.path)) :
    let h := treatAll settings engine db items w
    ∃ told : List (List Rewrite),
      List.Forall₂ (fun d new => Became settings engine db w₀ d.1 d.2 new) h.done told ∧
      Separate w₀.files ((rewrites ++ told.flatten).map Rewrite.path) ∧
      Leaves w₀.files h.after.files (rewrites ++ told.flatten) ∧
      (h.failure = none ∨ (∀ path, (w₀.faults.replace path).remove = none) →
        h.after.files.locations = w.files.locations) ∧
      (h.failure = none → Progress w₀ h.after (rewrites ++ told.flatten) ∧
        h.done.map Prod.fst = items) := by
  induction items generalizing w rewrites with
  | nil =>
      have hsep' : Separate w₀.files (rewrites.map Rewrite.path) := by simpa using hsep
      refine ⟨[], .nil, ?_⟩
      simp only [List.flatten_nil, List.append_nil]
      exact ⟨hsep', p.leaves, fun _ => rfl, fun _ => ⟨p, rfl⟩⟩
  | cons item rest ih =>
      have htreats := applyItem_treats settings engine db item w
      rw [treatAll]
      rcases hrun : (applyItem settings engine db item).run w with ⟨result, w'⟩
      rw [hrun] at htreats
      rcases htreats.became hkeeps p hsep with
        ⟨outcome, new, hok, hbecame, p', hlocations⟩ | ⟨failure, herror, hleaves, hlocations⟩
      · obtain rfl : result = .ok outcome := hok
        have hsep' : Separate w₀.files
            ((rewrites ++ new).map Rewrite.path ++ rest.map fun i => i.file.path) := by
          refine hsep.sublist ?_
          rw [List.map_append, List.append_assoc]
          exact (hbecame.paths_sublist.append_right _).append_left _
        obtain ⟨told, hdone, hapart, hleaves, hsame, hend⟩ := ih p' hsep'
        rw [List.append_assoc, ← List.flatten_cons] at hapart hleaves hend
        refine ⟨new :: told, .cons hbecame hdone, hapart, hleaves,
          fun h => (hsame h).trans hlocations, fun hnone => ?_⟩
        obtain ⟨p'', hitems⟩ := hend hnone
        exact ⟨p'', congrArg (item :: ·) hitems⟩
      · obtain rfl : result = .error failure := herror
        have hsep' : Separate w₀.files (rewrites.map Rewrite.path) :=
          hsep.sublist (List.sublist_append_left _ _)
        refine ⟨[], .nil, ?_⟩
        simp only [List.flatten_nil, List.append_nil]
        refine ⟨hsep', hleaves, fun h => hlocations (h.resolve_left fun hnone => ?_),
          fun hnone => ?_⟩
        · cases hnone
        · cases hnone

/-! ## Runs -/

/-- **A whole run**, as told from the beginning. -/
theorem history_became (hkeeps : engine.KeepsFiles) (settings : Settings) (w : Workspace σ)
    (hdb : classified settings engine w = .ok db) :
    let h := history settings engine w
    ∃ told : List (List Rewrite),
      List.Forall₂ (fun d new => Became settings engine db w d.1 d.2 new) h.done told ∧
      Separate w.files (told.flatten.map Rewrite.path) ∧
      Leaves w.files h.after.files told.flatten ∧
      (h.failure = none ∨ (∀ path, (w.faults.replace path).remove = none) →
        h.after.files.locations = w.files.locations) ∧
      (h.failure = none → Progress w h.after told.flatten ∧
        h.done.map Prod.fst = db.workList) := by
  obtain ⟨remarks, hhistory⟩ := history_of_classified settings engine w hdb
  have hsep := separate_todo hdb
  rw [← paths_workList] at hsep
  rw [hhistory]
  exact treatAll_became hkeeps db.workList ((Progress.refl w w.engine).say remarks) hsep

/-- **Directories list what they listed** after a run, as far as temporary files can be removed. -/
theorem children_runPipeline (hkeeps : engine.KeepsFiles) (settings : Settings) (w : Workspace σ)
    (hremove : ∀ path, (w.faults.replace path).remove = none) (dir : Location) :
    ((runPipeline settings engine).run w).2.files.children dir = w.files.children dir := by
  refine FileTree.children_of_locations ?_ dir
  rw [runPipeline_run]
  cases hdb : classified settings engine w with
  | error failure =>
      obtain ⟨remarks, hhistory⟩ := history_of_error settings engine w hdb
      rw [hhistory]
      rfl
  | ok db =>
      obtain ⟨_, _, _, _, hlocations, _⟩ := history_became hkeeps settings w hdb
      exact hlocations (.inr hremove)

/-- The rewrites of a run were made from what was read at their paths. -/
theorem exists_read_of_became {R : Bytes → Bytes → Prop} {done : List (WorkItem × Outcome)}
    {told : List (List Rewrite)}
    (h : List.Forall₂ (fun d new => Became settings engine db w d.1 d.2 new) done told)
    (hR : ∀ d ∈ done, ∀ entry before after, Due settings db d.1 w entry before →
      engine.Answers (requestFor settings db d.1 entry before) (.ok after) → R before after) :
    ∀ r ∈ told.flatten, ∃ old, w.files.readFile r.path = .ok old ∧ R old r.bytes := by
  induction h with
  | nil => simp
  | @cons d new done told hbecame _ ih =>
      intro r hr
      rw [List.flatten_cons, List.mem_append] at hr
      obtain ⟨item, outcome⟩ := d
      rcases hr with hr | hr
      · cases hbecame with
        | @rewritten entry before after hdue hanswer =>
            obtain rfl := List.mem_singleton.1 hr
            exact ⟨before, readFile_of_reread hdue.read,
              hR _ List.mem_cons_self entry before after hdue hanswer⟩
        | _ => simp at hr
      · exact ih (fun d hd => hR d (List.mem_cons_of_mem _ hd)) r hr

/-- What a run leaves is a tree in which files were rewritten. -/
theorem Leaves.revised {R : Bytes → Bytes → Prop} {t t' : FileTree} (h : Leaves t t' rewrites)
    (hsep : Separate t (rewrites.map Rewrite.path))
    (hR : ∀ r ∈ rewrites, ∃ old, t.readFile r.path = .ok old ∧ R old r.bytes) :
    Revised R t t' := by
  obtain ⟨mid, hframe, hmid⟩ := h
  have hfiles : FileTree.LeadToFiles t rewrites := by
    rw [← List.append_nil (rewrites.map Rewrite.path)] at hsep
    exact hsep.leadToFiles
  have hrevised := hframe.revised hfiles hR
  rcases hmid with rfl | hleft
  · exact hrevised
  · exact hrevised.leftover hleft

end FiberWeave
