import FiberWeave.Proofs.ClassificationOrder
import FiberWeave.Proofs.Course
import FiberWeave.Proofs.SecondRun

/-!
# Running in another order

What becomes of a class does not depend on the classes treated before it: their files are other
files, and a temporary file does not stay.  So a run that treats the classes of its work list in
another order fails if it failed, and otherwise does the same to each of them.

* `Engine.Determined` — an engine that goes by the class, its bytes and its entry.
* `treatment` — what becomes of a class if it is the first one to be treated; **`Treats.told`** says
  that the same becomes of it later.
* `treatedAlone`, **`treatAll_accounts`** — a work list, by induction on it.
* `FileTree.Frame.alike_of_perm` — the same rewrites in another order leave the same files.
* `SameRun` — runs that both fail, or do the same.
* **`runPipeline_reordered`** — runs on trees whose directories list their names in different
  orders.
-/

namespace FiberWeave

open FileTree (Rewrite Frame Separate LeadsToFile Alike Reordered)

variable {σ : Type}

/-- An engine with the usual analysis that does not touch files, and whose answers depend on the
name of the class, its bytes and its entry only. -/
structure Engine.Determined (engine : Engine σ) : Prop where
  analyze : engine.analyze = ClassFacts.analyze
  keepsFiles : engine.KeepsFiles
  determined : ∀ request request' w w', request'.className = request.className →
    request'.bytes = request.bytes → request'.entry = request.entry →
    (engine.rewrite request' w').1 = (engine.rewrite request w).1

theorem Engine.Marking.toDetermined {engine : Engine σ} (h : engine.Marking) : engine.Determined :=
  ⟨h.analyze, h.keepsFiles, h.determined⟩

/-! ## One class -/

/-- What becomes of a class that the engine is asked about, and what is rewritten by it. -/
def settlement (settings : Settings) (engine : Engine σ) (db : Database) (w : Workspace σ)
    (item : WorkItem) (entry : ClassEntry) (before : Bytes) :
    Except Failure (Outcome × List Rewrite) :=
  match (engine.rewrite (requestFor settings db item entry before) w).1 with
  | .error failure =>
      if entry.hasSuspendPoints then .error (.rewrite entry.name failure)
      else .ok (.toleratedFailure failure.message, [])
  | .ok after =>
      match (w.replace item.file.path after).1 with
      | .error cause => .error (.io item.file.path cause)
      | .ok _ => .ok (.rewritten (Digest.ofBytes before) (Digest.ofBytes after),
          [⟨item.file.path, after⟩])

/-- What becomes of a class if it is the first one to be treated, and what is rewritten by it. -/
def treatment (settings : Settings) (engine : Engine σ) (db : Database) (w : Workspace σ)
    (item : WorkItem) : Except Failure (Outcome × List Rewrite) :=
  if !settings.inclusions.includes item.name then .ok (.excluded, [])
  else if !ClassName.mayInstrument item.name then .ok (.skipped, [])
  else
    match db.get? item.name with
    | none => .error (.unclassified item.name)
    | some entry =>
        if !entry.requiresInstrumentation then .ok (.skipped, [])
        else
          match w.reread item.file.path with
          | .error cause => .error (.io item.file.path cause)
          | .ok before => settlement settings engine db w item entry before

/-- The treatment of a class gave what is told of it, and left what is told after `rewrites`. -/
inductive Told (w₀ w : Workspace σ) (rewrites : List Rewrite) :
    Except Failure (Outcome × List Rewrite) → Except Failure Outcome → Prop where
  | failed (failure : Failure) : Told w₀ w rewrites (.error failure) (.error failure)
  | done {outcome : Outcome} {new : List Rewrite} (h : Progress w₀ w (rewrites ++ new)) :
      Told w₀ w rewrites (.ok (outcome, new)) (.ok outcome)

variable {settings : Settings} {engine : Engine σ} {db db' : Database} {item : WorkItem}
  {w₀ w w' : Workspace σ} {rewrites new : List Rewrite} {paths : List String}

theorem Due.treatment_eq {entry : ClassEntry} {before : Bytes}
    (h : Due settings db item w entry before) :
    treatment settings engine db w item = settlement settings engine db w item entry before := by
  simp [treatment, h.included, h.mayInstrument, h.classified, h.requires, h.read]

/-- Only the file of a class is rewritten by its treatment. -/
theorem paths_settlement {entry : ClassEntry} {before : Bytes} {outcome : Outcome}
    (h : settlement settings engine db w item entry before = .ok (outcome, new)) :
    (new.map Rewrite.path).Sublist [item.file.path] := by
  unfold settlement at h
  split at h
  · split at h
    · cases h
    · cases h
      exact List.nil_sublist _
  · split at h
    · cases h
    · cases h
      exact List.Sublist.refl _

theorem paths_treatment {outcome : Outcome}
    (h : treatment settings engine db w item = .ok (outcome, new)) :
    (new.map Rewrite.path).Sublist [item.file.path] := by
  have hnil : ∀ {other : Outcome}, (Except.ok (other, []) : Except Failure _) = .ok (outcome, new) →
      (new.map Rewrite.path).Sublist [item.file.path] := by
    intro other heq
    cases heq
    exact List.nil_sublist _
  unfold treatment at h
  split at h
  · exact hnil h
  · split at h
    · exact hnil h
    · split at h
      · cases h
      · split at h
        · exact hnil h
        · split at h
          · cases h
          · exact paths_settlement h

/-- **Whatever was treated before, the same becomes of a class** as if it were the first one. -/
theorem Treats.told {result : Except Failure Outcome}
    (h : Treats settings engine db item w result w') (hengine : engine.Determined)
    (p : Progress w₀ w rewrites)
    (hsep : Separate w₀.files (rewrites.map Rewrite.path ++ item.file.path :: paths)) :
    Told w₀ w' rewrites (treatment settings engine db w₀ item) result := by
  have hidle : Progress w₀ w (rewrites ++ []) := by rwa [List.append_nil]
  have hreread := p.reread hsep
  -- the engine answers as it would have at the beginning
  have hfirst : ∀ {request : Request} {remarks : List Remark}
      {answer : Except RewriteFailure Bytes} {w₁ : Workspace σ},
      engine.rewrite request (w.say remarks) = (answer, w₁) →
        (engine.rewrite request w₀).1 = answer := fun hanswer =>
    (hengine.determined _ _ _ _ rfl rfl rfl).trans (congrArg Prod.fst hanswer)
  cases h with
  | excluded remarks hincl =>
      simp only [treatment, hincl, Bool.not_false, if_true]
      exact .done (hidle.say remarks)
  | never remarks hincl hname =>
      simp only [treatment, hincl, hname, Bool.not_false, Bool.not_true, Bool.false_eq_true,
        if_true, if_false]
      exact .done (hidle.say remarks)
  | unclassified hincl hname hentry =>
      simp only [treatment, hincl, hname, hentry, Bool.not_true, Bool.false_eq_true, if_false]
      exact .failed _
  | idle remarks hincl hname hentry hrequires =>
      simp only [treatment, hincl, hname, hentry, hrequires, Bool.not_false, Bool.not_true,
        Bool.false_eq_true, if_true, if_false]
      exact .done (hidle.say remarks)
  | unread hincl hname hentry hrequires hread =>
      rw [hreread] at hread
      simp only [treatment, hincl, hname, hentry, hrequires, hread, Bool.not_true,
        Bool.false_eq_true, if_false]
      exact .failed _
  | @rewritten entry before after _ _ remarks hdue hanswer hput =>
      obtain ⟨hasked, _⟩ := p.heard hengine.keepsFiles hanswer
      obtain ⟨hok, rfl⟩ := Prod.mk.inj hput
      have hok₀ := (hasked.replace_result hsep after).symm.trans hok
      rw [(p.due hsep hdue).treatment_eq, settlement, hfirst hanswer]
      simp only [hok₀]
      exact .done (hasked.rewrite hsep hok)
  | @unplaced entry before after _ _ _ remarks hdue hanswer hput =>
      obtain ⟨hasked, _⟩ := p.heard hengine.keepsFiles hanswer
      obtain ⟨herror, rfl⟩ := Prod.mk.inj hput
      have herror₀ := (hasked.replace_result hsep after).symm.trans herror
      rw [(p.due hsep hdue).treatment_eq, settlement, hfirst hanswer]
      simp only [herror₀]
      exact .failed _
  | fatal remarks remarks' hdue hanswer hpoints =>
      rw [(p.due hsep hdue).treatment_eq, settlement, hfirst hanswer]
      simp only [hpoints, if_true]
      exact .failed _
  | tolerated remarks remarks' hdue hanswer hpoints =>
      obtain ⟨hasked, _⟩ := p.heard hengine.keepsFiles hanswer
      rw [(p.due hsep hdue).treatment_eq, settlement, hfirst hanswer]
      simp only [hpoints, Bool.false_eq_true, if_false]
      exact .done (by simpa using hasked.say remarks')

/-! ## Work lists -/

/-- A class with what became of it, and what was rewritten by that. -/
structure Treated where
  item : WorkItem
  outcome : Outcome
  rewrites : List Rewrite

/-- What became of a class, without what was rewritten. -/
def Treated.line (treated : Treated) : WorkItem × Outcome := (treated.item, treated.outcome)

/-- A class with what becomes of it if it is the first one to be treated. -/
def treatedAlone (settings : Settings) (engine : Engine σ) (db : Database) (w : Workspace σ)
    (item : WorkItem) : Except Failure Treated :=
  (treatment settings engine db w item).map fun (outcome, rewrites) => ⟨item, outcome, rewrites⟩

/-- What became of a work list is what would have become of each class alone. -/
inductive Accounts (w₀ : Workspace σ) (rewrites : List Rewrite) :
    Except Failure (List Treated) → History σ → Prop where
  | failed {h : History σ} (failure : Failure) (hfailure : h.failure = some failure) :
      Accounts w₀ rewrites (.error failure) h
  | done {h : History σ} {all : List Treated} (hfailure : h.failure = none)
      (hdone : h.done = all.map Treated.line)
      (hafter : Progress w₀ h.after (rewrites ++ all.flatMap Treated.rewrites)) :
      Accounts w₀ rewrites (.ok all) h

/-- **The treatment of a work list** does to each class what would become of it as the first one. -/
theorem treatAll_accounts (hengine : engine.Determined) (items : List WorkItem)
    (p : Progress w₀ w rewrites)
    (hsep : Separate w₀.files (rewrites.map Rewrite.path ++ items.map fun i => i.file.path)) :
    Accounts w₀ rewrites (items.mapM (treatedAlone settings engine db w₀))
      (treatAll settings engine db items w) := by
  induction items generalizing w rewrites with
  | nil => exact .done rfl rfl (by simpa [treatAll] using p)
  | cons item rest ih =>
      have htold := (applyItem_treats settings engine db item w).told hengine p hsep
      have hpaths : ∀ outcome new, treatment settings engine db w₀ item = .ok (outcome, new) →
          (new.map Rewrite.path).Sublist [item.file.path] := fun _ _ => paths_treatment
      rw [treatAll, List.mapM_cons, treatedAlone]
      rcases hrun : (applyItem settings engine db item).run w with ⟨result, w'⟩
      rw [hrun] at htold
      generalize treatment settings engine db w₀ item = told at htold hpaths
      cases htold with
      | failed failure => exact .failed failure rfl
      | @done outcome new p' =>
          have hsep' : Separate w₀.files
              ((rewrites ++ new).map Rewrite.path ++ rest.map fun i => i.file.path) := by
            refine hsep.sublist ?_
            rw [List.map_append, List.append_assoc]
            exact ((hpaths outcome new rfl).append_right _).append_left _
          have hrest := ih p' hsep'
          simp only [Attempt.map_ok, Attempt.ok_bind]
          generalize rest.mapM (treatedAlone settings engine db w₀) = all at hrest
          cases hrest with
          | failed failure hfailure => exact .failed failure hfailure
          | done hfailure hdone hafter =>
              refine .done hfailure ?_ ?_
              · simp [hdone, Treated.line]
              · simpa using hafter

/-! ## The same classes in another order -/

/-- The same rewrites of trees with the same entries leave trees with the same entries. -/
theorem FileTree.Frame.alike_of_perm {t t' final final' : FileTree} {rewrites' : List Rewrite}
    (f : Frame t final rewrites) (f' : Frame t' final' rewrites') (h : Alike t t')
    (hperm : rewrites'.Perm rewrites) : Alike final final' := by
  refine ⟨?_, ?_, fun loc => ?_⟩
  · rw [f.workingDirectory, f'.workingDirectory, h.workingDirectory]
  · rw [f.host, f'.host, h.host]
  · by_cases hslot : ∃ r ∈ rewrites, t.slot r.path = .ok loc
    · obtain ⟨r, hr, hslot⟩ := hslot
      obtain ⟨loc₁, mode, hslot₁, hmode, he⟩ := f.rewritten r hr
      obtain ⟨loc₂, mode', hslot₂, hmode', he'⟩ := f'.rewritten r (hperm.symm.subset hr)
      rw [h.slot] at hslot₂
      rw [h.modeAt] at hmode'
      obtain rfl := Except.ok.inj (hslot.symm.trans hslot₁)
      obtain rfl := Except.ok.inj (hslot.symm.trans hslot₂)
      obtain rfl := Except.ok.inj (hmode.symm.trans hmode')
      rw [he, he']
    · have hother : ∀ r ∈ rewrites, t.slot r.path ≠ .ok loc := fun r hr hr' => hslot ⟨r, hr, hr'⟩
      have hother' : ∀ r ∈ rewrites', t'.slot r.path ≠ .ok loc := fun r hr =>
        h.slot _ ▸ hother r (hperm.subset hr)
      rw [f.others loc hother, f'.others loc hother', h.get?]

variable {t' : FileTree}

/-- What becomes of a class alone does not depend on orders. -/
theorem treatment_reordered (hengine : engine.Determined) (h : Alike w.files t')
    (hdb : db'.get? item.name = db.get? item.name)
    (hfile : w.files.isFile item.file.path = true) :
    treatment settings engine db' { w with files := t' } item =
      treatment settings engine db w item := by
  have hreread : ∀ path, Workspace.reread { w with files := t' } path = w.reread path := by
    intro path
    simp only [Workspace.reread, h.readFile]
  have hreplace : ∀ bytes, (Workspace.replace { w with files := t' } item.file.path bytes).1 =
      (w.replace item.file.path bytes).1 := by
    obtain ⟨goal, hleads⟩ := FileTree.leadsToFile_of_isFile hfile
    exact fun bytes => Replace.run_result_overlay h.overlay
      (fun loc hfree => (h.get? loc).trans hfree) hleads.resolve hleads.holdsFile List.not_mem_nil
  have hanswer : ∀ entry before,
      (engine.rewrite (requestFor settings db' item entry before) { w with files := t' }).1 =
        (engine.rewrite (requestFor settings db item entry before) w).1 := fun entry before =>
    hengine.determined _ _ _ _ rfl rfl rfl
  simp only [treatment, settlement, hdb, hreread, hreplace, hanswer]

/-- A work list in another order, with what becomes of each class alone. -/
theorem parallel_treatedAlone (hengine : engine.Determined) (h : Alike w.files t')
    (hclassified : classified settings engine w = .ok db) (hdb : db.Reordered db') :
    Attempt.Parallel List.Perm (db.workList.mapM (treatedAlone settings engine db w))
      (db'.workList.mapM (treatedAlone settings engine db' { w with files := t' })) := by
  have hsame : ∀ item ∈ db'.workList, treatedAlone settings engine db' { w with files := t' } item =
      treatedAlone settings engine db w item := by
    intro item hitem
    have hget := hdb.get? (nodup_names_of_classified hclassified) item.name
    have hfile : w.files.isFile item.file.path = true := by
      rw [workList_eq] at *
      obtain ⟨e, he, rfl⟩ := List.mem_map.1 (hdb.workList.subset hitem)
      have hsourced := sourced_of_classified hclassified e (List.mem_of_mem_filter he)
      exact isFile_of_mem_foundFiles hsourced.found
    rw [treatedAlone, treatedAlone, treatment_reordered hengine h hget hfile]
  rw [Attempt.mapM_congr hsame]
  exact Attempt.parallel_mapM_perm _ hdb.workList.symm

/-! ## Runs -/

/-- The history of a run that classified its classes. -/
theorem history_accounts (hengine : engine.Determined)
    (hclassified : classified settings engine w = .ok db) :
    Accounts w [] (db.workList.mapM (treatedAlone settings engine db w))
      (history settings engine w) := by
  obtain ⟨remarks, hhistory⟩ := history_of_classified settings engine w hclassified
  have hsep := separate_todo hclassified
  rw [← paths_workList] at hsep
  rw [hhistory]
  exact treatAll_accounts hengine db.workList ((Progress.refl w w.engine).say remarks) hsep

/-- A run that ends well leaves the locations that were taken. -/
theorem locations_history (hengine : engine.Determined)
    (hclassified : classified settings engine w = .ok db)
    (hfailure : (history settings engine w).failure = none) :
    (history settings engine w).after.files.locations = w.files.locations := by
  obtain ⟨_, _, _, _, hlocations, _⟩ := history_became hengine.keepsFiles settings w hclassified
  exact hlocations (.inl hfailure)

/-- Reports that are the same but for the order of classes. -/
structure RunReport.Reordered (report report' : RunReport) : Prop where
  workList : report'.workList.Perm report.workList
  classes : report'.classes.Perm report.classes
  rest : report' = { report with workList := report'.workList, classes := report'.classes }

/-- Runs that both fail, or both succeed, report the same and leave the same files, but for an
order. -/
inductive SameRun :
    Except Failure RunReport × Workspace σ → Except Failure RunReport × Workspace σ → Prop where
  | failed (failure failure' : Failure) (w w' : Workspace σ) :
      SameRun (.error failure, w) (.error failure', w')
  | succeeded {report report' : RunReport} {w w' : Workspace σ} (hreport : report.Reordered report')
      (hfiles : w.files.Reordered w'.files) : SameRun (.ok report, w) (.ok report', w')

/-- The same outcomes in another order make the same report in another order. -/
theorem pushAll_reordered (hdb : db.Reordered db') {done done' : List (WorkItem × Outcome)}
    (hdone : done'.Perm done) :
    ((reportOf settings db).pushAll done).Reordered ((reportOf settings db').pushAll done') := by
  rw [pushAll_eq, pushAll_eq]
  refine ⟨hdb.workList.map _, hdone.map _, ?_⟩
  have hsize : db'.size = db.size := hdb.entries.length_eq
  simp only [reportOf, RunReport.start, hdb.scanned, hsize, hdone.countP_eq]

theorem runPipeline_eq (settings : Settings) (engine : Engine σ) (w : Workspace σ) :
    (runPipeline settings engine).run w =
      (match classified settings engine w with
        | .error failure => .error failure
        | .ok db => (history settings engine w).result (reportOf settings db),
        (history settings engine w).after) :=
  Prod.ext (runPipeline_result settings engine w) (by rw [runPipeline_run])

/-- A run on a tree and a run on the same tree in another order, after their classifications. -/
theorem sameRun_of_classified (hengine : engine.Determined) (ht : w.files.WellFormed)
    (h : w.files.Reordered t') (hclassified : classified settings engine w = .ok db)
    (hclassified' : classified settings engine { w with files := t' } = .ok db')
    (hdb : db.Reordered db') :
    SameRun
      ((history settings engine w).result (reportOf settings db), (history settings engine w).after)
      ((history settings engine { w with files := t' }).result (reportOf settings db'),
        (history settings engine { w with files := t' }).after) := by
  have halike := h.alike ht.distinct
  have hparallel := parallel_treatedAlone hengine halike hclassified hdb
  have haccounts := history_accounts hengine hclassified
  have haccounts' := history_accounts hengine hclassified'
  have hlocations := locations_history hengine hclassified
  have hlocations' := locations_history hengine hclassified'
  generalize history settings engine w = first, history settings engine { w with files := t' } =
    second at haccounts haccounts' hlocations hlocations'
  rcases hparallel.elim with
    ⟨failure, failure', hfailed, hfailed'⟩ | ⟨all, all', hall, hall', hperm⟩
  · rw [hfailed] at haccounts
    rw [hfailed'] at haccounts'
    cases haccounts with
    | failed _ hfailure =>
        cases haccounts' with
        | failed _ hfailure' =>
            simp only [History.result, hfailure, hfailure']
            exact .failed _ _ _ _
  · rw [hall] at haccounts
    rw [hall'] at haccounts'
    cases haccounts with
    | done hfailure hdone hafter =>
        cases haccounts' with
        | done hfailure' hdone' hafter' =>
            have hrewrites := (hperm.symm.flatMap_right Treated.rewrites)
            have hfinal : Alike first.after.files second.after.files :=
              hafter.frame.alike_of_perm hafter'.frame halike (by simpa using hrewrites)
            have hlines : second.done.Perm first.done := by
              rw [hdone, hdone']
              exact hperm.symm.map Treated.line
            simp only [History.result, hfailure, hfailure']
            refine .succeeded (pushAll_reordered hdb hlines) ?_
            exact hfinal.reordered ht (h.wellFormed ht) (hlocations hfailure)
              (hlocations' hfailure')

/-- **The order in which directories list their names does not matter**, if there are no links in
the build directory and no two class files in it are of one class. -/
theorem runPipeline_reordered (hengine : engine.Determined) (ht : w.files.WellFormed)
    (hfree : ∀ root, w.files.resolve settings.buildDirectory = .ok root → w.files.LinkFree root)
    (hapart : ClassesApart settings w.files) (h : w.files.Reordered t') :
    let again : Workspace σ := { w with files := t' }
    SameRun ((runPipeline settings engine).run w) ((runPipeline settings engine).run again) ∧
      Attempt.Parallel (fun db db' => db.Reordered db' ∧ ∀ name, db'.get? name = db.get? name)
        ((classify settings engine).run w).1 ((classify settings engine).run again).1 := by
  intro again
  have halike := h.alike ht.distinct
  obtain ⟨remarks, hrun⟩ := classify_run settings engine w
  obtain ⟨remarks', hrun'⟩ := classify_run settings engine again
  rw [runPipeline_eq, runPipeline_eq, hrun, hrun']
  rcases (classified_reordered hengine.analyze ht hfree hapart h).elim with
    ⟨failure, failure', hfailed, hfailed'⟩ | ⟨db, db', hclassified, hclassified', hdb⟩
  · simp only [again, hfailed, hfailed']
    exact ⟨.failed _ _ _ _, .error _ _⟩
  · simp only [again, hclassified, hclassified']
    exact ⟨sameRun_of_classified hengine ht h hclassified hclassified' hdb,
      .ok ⟨hdb, hdb.get? (nodup_names_of_classified hclassified)⟩⟩

/-- A build with a class that can be rewritten, and one that cannot. -/
def siblingBuild : FileTree where
  entries := [
    (["build"], .directory),
    (["build", "A.class"], .file (.bytes taskFile) Entry.fileMode),
    (["build", "C.class"], .file (.bytes callerFile) Entry.fileMode)]

/-- The same build, with every directory listed the other way round. -/
def mirroredBuild : FileTree where
  entries := siblingBuild.entries.reverse

/-- The two classes are treated in different orders, and the same becomes of them. -/
theorem runPipeline_reordered_siblings :
    let engine := Engine.only taskFile markedFile
    let w := Workspace.fresh siblingBuild
    let again := Workspace.fresh mirroredBuild
    ((runPipeline plainBuild engine).run w).1.toOption.map (·.workList) = some ["A", "C"] ∧
      ((runPipeline plainBuild engine).run again).1.toOption.map (·.workList) = some ["C", "A"] ∧
      SameRun ((runPipeline plainBuild engine).run w) ((runPipeline plainBuild engine).run again) ∧
      Attempt.Parallel (fun db db' => db.Reordered db' ∧ ∀ name, db'.get? name = db.get? name)
        ((classify plainBuild engine).run w).1 ((classify plainBuild engine).run again).1 := by
  intro engine w again
  have hwell : w.files.WellFormed := by decide +kernel
  have hfree : ∀ root, w.files.resolve plainBuild.buildDirectory = .ok root →
      w.files.LinkFree root := by
    intro root _ names target hlink
    have hmem := FileTree.exists_mem_of_get? hlink
      (by rintro hroot; simp [hroot, FileTree.get?] at hlink)
    simp [w, Workspace.fresh, siblingBuild] at hmem
  have hapart : ClassesApart plainBuild w.files := by
    unfold ClassesApart
    decide +kernel
  have hreordered : w.files.Reordered mirroredBuild := ⟨rfl, rfl, List.reverse_perm _⟩
  exact ⟨by decide +kernel, by decide +kernel,
    runPipeline_reordered (Engine.only_marking analyze_markedFile).toDetermined hwell hfree hapart
      hreordered⟩

end FiberWeave
