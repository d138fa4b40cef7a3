import FiberWeave.Proofs.Course
import FiberWeave.Proofs.Effects
import FiberWeave.Proofs.Marking

/-!
# A second run

A run that ends well leaves on its work list only classes that it left alone: classes that were left
out, and classes whose rewrite failed without harm.  What it rewrote is marked, and a marked class is
not on a work list.  As nothing else has changed about the classes, another run leaves the same
classes alone.

* `Engine.Marking` — an engine that marks the classes that it rewrites.
* `Calm` — a class that a run leaves alone; `treatAll_calm` — a work list of such classes.
* `treatAll_asks` — an engine is asked about classes on the work list only.
* `calm_again` — what is on the work list again is left alone.
* **`runPipeline_again`** — a second run changes nothing.
-/

namespace FiberWeave

open FileTree (Revised)

variable {σ : Type}

/-- An engine with the usual analysis that does not touch files. Its answers depend on the name of the
class, its bytes and its entry only, and a class that it rewrites gets a mark and is otherwise what
it was. -/
structure Engine.Marking (engine : Engine σ) : Prop where
  analyze : engine.analyze = ClassFacts.analyze
  keepsFiles : engine.KeepsFiles
  determined : ∀ request request' w w', request'.className = request.className →
    request'.bytes = request.bytes → request'.entry = request.entry →
    (engine.rewrite request' w').1 = (engine.rewrite request w).1
  marks : ∀ request w output, (engine.rewrite request w).1 = .ok output →
    ∀ facts, ClassFacts.analyze request.bytes = .ok facts →
      ClassFacts.analyze output = .ok facts.marked

/-! ## Classes that are left alone -/

/-- A class that a run leaves alone: it is left out, or its rewrite fails without harm. -/
inductive Calm (settings : Settings) (engine : Engine σ) (db : Database) (w : Workspace σ)
    (item : WorkItem) : Prop where
  | excluded (hincl : settings.inclusions.includes item.name = false)
  | never (hname : ClassName.mayInstrument item.name = false)
  | idle {entry : ClassEntry} (hentry : db.get? item.name = some entry)
      (hrequires : entry.requiresInstrumentation = false)
  | tolerated {entry : ClassEntry} {before : Bytes} {failure : RewriteFailure}
      (hdue : Due settings db item w entry before)
      (hanswer : ∀ w', (engine.rewrite (requestFor settings db item entry before) w').1 =
        .error failure)
      (hpoints : entry.hasSuspendPoints = false)

/-- The files are as they were, and so are the steps on them that fail. -/
structure Still (w₀ w : Workspace σ) : Prop where
  files : w.files = w₀.files
  faults : w.faults = w₀.faults

section Calm

variable {settings : Settings} {engine : Engine σ} {db : Database} {item : WorkItem}
  {w₀ w w' : Workspace σ}

theorem Still.reread (h : Still w₀ w) (path : String) : w.reread path = w₀.reread path := by
  rw [Workspace.reread, Workspace.reread, h.files, h.faults]

theorem Still.asked (h : Still w₀ w) (hkeeps : engine.KeepsFiles) {request : Request}
    {remarks : List Remark} {answer : Except RewriteFailure Bytes}
    (hanswer : engine.rewrite request (w.say remarks) = (answer, w')) : Still w₀ w' := by
  obtain rfl : (engine.rewrite request (w.say remarks)).2 = w' := by rw [hanswer]
  exact ⟨(hkeeps.files request _).trans h.files, (hkeeps.faults request _).trans h.faults⟩

/-- A calm class that is due makes the engine fail without harm. -/
theorem Calm.of_due (h : Calm settings engine db w₀ item) (hstill : Still w₀ w) {entry : ClassEntry}
    {before : Bytes} (hdue : Due settings db item w entry before) :
    entry.hasSuspendPoints = false ∧ ∃ failure, ∀ w',
      (engine.rewrite (requestFor settings db item entry before) w').1 = .error failure := by
  cases h with
  | excluded hincl => simp [hdue.included] at hincl
  | never hname => simp [hdue.mayInstrument] at hname
  | idle hentry hrequires =>
      obtain rfl := Option.some.inj (hdue.classified.symm.trans hentry)
      simp [hdue.requires] at hrequires
  | tolerated hdue₀ hanswer hpoints =>
      obtain rfl := Option.some.inj (hdue.classified.symm.trans hdue₀.classified)
      obtain rfl := Except.ok.inj (hdue.read.symm.trans ((hstill.reread _).trans hdue₀.read))
      exact ⟨hpoints, _, hanswer⟩

/-- A calm class is left alone. -/
theorem Treats.calm {result : Except Failure Outcome}
    (h : Treats settings engine db item w result w') (hkeeps : engine.KeepsFiles)
    (hcalm : Calm settings engine db w₀ item) (hstill : Still w₀ w) :
    ∃ outcome, result = .ok outcome ∧ outcome.isRewritten = false ∧ Still w₀ w' := by
  cases h with
  | excluded remarks _ => exact ⟨_, rfl, rfl, hstill.files, hstill.faults⟩
  | never remarks _ _ => exact ⟨_, rfl, rfl, hstill.files, hstill.faults⟩
  | idle remarks _ _ _ _ => exact ⟨_, rfl, rfl, hstill.files, hstill.faults⟩
  | unclassified hincl hname hentry =>
      cases hcalm with
      | excluded hincl' => simp [hincl] at hincl'
      | never hname' => simp [hname] at hname'
      | idle hentry' => simp [hentry] at hentry'
      | tolerated hdue => exact absurd (hentry.symm.trans hdue.classified) (by simp)
  | unread hincl hname hentry hrequires hread =>
      cases hcalm with
      | excluded hincl' => simp [hincl] at hincl'
      | never hname' => simp [hname] at hname'
      | idle hentry' hrequires' =>
          obtain rfl := Option.some.inj (hentry.symm.trans hentry')
          simp [hrequires] at hrequires'
      | tolerated hdue =>
          rw [hstill.reread, hdue.read] at hread
          cases hread
  | rewritten remarks hdue hanswer =>
      obtain ⟨_, failure, hfails⟩ := hcalm.of_due hstill hdue
      simpa [hanswer] using hfails (w.say remarks)
  | unplaced remarks hdue hanswer =>
      obtain ⟨_, failure, hfails⟩ := hcalm.of_due hstill hdue
      simpa [hanswer] using hfails (w.say remarks)
  | fatal remarks remarks' hdue hanswer hpoints =>
      obtain ⟨hpoints', _⟩ := hcalm.of_due hstill hdue
      simp [hpoints] at hpoints'
  | tolerated remarks remarks' hdue hanswer hpoints =>
      obtain ⟨hfiles, hfaults⟩ := hstill.asked hkeeps hanswer
      exact ⟨_, rfl, rfl, hfiles, hfaults⟩

/-- A work list of calm classes is left alone. -/
theorem treatAll_calm (hkeeps : engine.KeepsFiles) {items : List WorkItem}
    (hcalm : ∀ item ∈ items, Calm settings engine db w₀ item) (hstill : Still w₀ w) :
    let h := treatAll settings engine db items w
    h.failure = none ∧ (∀ d ∈ h.done, d.2.isRewritten = false) ∧ Still w₀ h.after := by
  induction items generalizing w with
  | nil => exact ⟨rfl, by simp [treatAll], hstill⟩
  | cons item rest ih =>
      have htreats := applyItem_treats settings engine db item w
      rw [treatAll]
      rcases hrun : (applyItem settings engine db item).run w with ⟨result, w'⟩
      rw [hrun] at htreats
      obtain ⟨outcome, hok, hidle, hstill'⟩ :=
        htreats.calm hkeeps (hcalm item List.mem_cons_self) hstill
      obtain rfl : result = .ok outcome := hok
      obtain ⟨hnone, hlater, hend⟩ :=
        ih (fun i hi => hcalm i (List.mem_cons_of_mem _ hi)) hstill'
      exact ⟨hnone, List.forall_mem_cons.2 ⟨hidle, hlater⟩, hend⟩

end Calm

/-! ## What an engine is asked -/

section Asked

variable {settings : Settings} {engine : Engine σ} {db : Database} {item : WorkItem}
  {w w' : Workspace (σ × List Exchange)}

/-- What is asked goes on the record. -/
theorem engine_of_recorded {request : Request} {remarks : List Remark}
    {answer : Except RewriteFailure Bytes}
    (hanswer : engine.recorded.rewrite request (w.say remarks) = (answer, w')) :
    w'.engine.2 = w.engine.2 ++ [⟨request, answer⟩] := by
  obtain ⟨rfl, rfl⟩ := Prod.mk.inj hanswer
  rfl

/-- The treatment of a class asks about this class only. -/
theorem Treats.asks {result : Except Failure Outcome}
    (h : Treats settings engine.recorded db item w result w') :
    ∀ x ∈ w'.engine.2, x ∈ w.engine.2 ∨ x.request.className = item.name := by
  have hasked : ∀ {entry : ClassEntry} {before : Bytes} {answer : Except RewriteFailure Bytes}
      {w₂ : Workspace (σ × List Exchange)},
      w₂.engine.2 = w.engine.2 ++ [⟨requestFor settings db item entry before, answer⟩] →
      ∀ x ∈ w₂.engine.2, x ∈ w.engine.2 ∨ x.request.className = item.name := by
    intro entry before answer w₂ hrecord x hx
    rw [hrecord] at hx
    rcases List.mem_append.1 hx with hx | hx
    · exact .inl hx
    · obtain rfl := List.mem_singleton.1 hx
      exact .inr rfl
  cases h with
  | rewritten remarks hdue hanswer hput =>
      obtain ⟨_, rfl⟩ := Prod.mk.inj hput
      have hrecord := engine_of_recorded hanswer
      exact hasked hrecord
  | unplaced remarks hdue hanswer hput =>
      obtain ⟨_, rfl⟩ := Prod.mk.inj hput
      have hrecord := engine_of_recorded hanswer
      exact hasked hrecord
  | fatal remarks remarks' hdue hanswer =>
      have hrecord := engine_of_recorded hanswer
      exact hasked hrecord
  | tolerated remarks remarks' hdue hanswer =>
      have hrecord := engine_of_recorded hanswer
      exact hasked hrecord
  | _ => exact fun x hx => .inl hx

/-- An engine is asked about the classes of a work list only. -/
theorem treatAll_asks (items : List WorkItem) :
    ∀ x ∈ (treatAll settings engine.recorded db items w).after.engine.2,
      x ∈ w.engine.2 ∨ ∃ item ∈ items, x.request.className = item.name := by
  induction items generalizing w with
  | nil => exact fun x hx => .inl hx
  | cons item rest ih =>
      have htreats := applyItem_treats settings engine.recorded db item w
      rw [treatAll]
      rcases hrun : (applyItem settings engine.recorded db item).run w with ⟨result, w'⟩
      rw [hrun] at htreats
      have hfirst : ∀ x ∈ w'.engine.2, x ∈ w.engine.2 ∨
          ∃ i ∈ item :: rest, x.request.className = i.name := fun x hx =>
        (htreats.asks x hx).imp_right fun hname => ⟨item, List.mem_cons_self, hname⟩
      cases result with
      | error failure => exact hfirst
      | ok outcome =>
          intro x hx
          rcases ih x hx with hx | ⟨i, hi, hname⟩
          · exact hfirst x hx
          · exact .inr ⟨i, List.mem_cons_of_mem _ hi, hname⟩

/-- A run asks its engine about classes on its work list only. -/
theorem exchanges_asks {w : Workspace σ} (hdb : classified settings engine w = .ok db) :
    ∀ x ∈ exchanges settings engine w, ∃ item ∈ db.workList, x.request.className = item.name := by
  intro x hx
  obtain ⟨remarks, hhistory⟩ := history_of_classified settings engine.recorded w.recording hdb
  rw [exchanges_eq, hhistory] at hx
  exact (treatAll_asks db.workList x hx).resolve_left List.not_mem_nil

end Asked

/-! ## What is on the work list again -/

section Again

variable {settings : Settings} {engine : Engine σ} {w again : Workspace σ} {db db' : Database}

theorem get?_again (h : List.Forall₂ Settled db.entries db'.entries) (name : String) :
    Option.Rel Settled (db.get? name) (db'.get? name) :=
  forall₂_find? (fun e e' he => by rw [he.name]) h

theorem exists_get?_again (h : List.Forall₂ Settled db.entries db'.entries) {name : String}
    {e : ClassEntry} (he : db.get? name = some e) :
    ∃ e', db'.get? name = some e' ∧ Settled e e' := by
  have hfound := get?_again h name
  rw [he] at hfound
  generalize db'.get? name = found at hfound
  cases hfound with
  | some hsettled => exact ⟨_, rfl, hsettled⟩

/-- What is to be rewritten after a run was to be rewritten before it. -/
theorem mem_todo_of_again (h : List.Forall₂ Settled db.entries db'.entries) {e : ClassEntry}
    (he : e ∈ db'.todo) : e ∈ db.todo := by
  obtain ⟨he, hrequires⟩ := List.mem_filter.1 he
  obtain ⟨e₀, he₀, hsettled⟩ := exists_of_mem_forall₂ h he
  obtain rfl := hsettled.requires hrequires
  exact List.mem_filter.2 ⟨he₀, hrequires⟩

/-- A class that is to be rewritten has no mark in its file. -/
theorem unmarked_of_mem_todo (hdb : classified settings engine w = .ok db) {e : ClassEntry}
    (he : e ∈ db.todo) : ∃ bytes facts, w.files.readFile e.file.path = .ok bytes ∧
      engine.analyze bytes = .ok facts ∧ facts.instrumented = false := by
  obtain ⟨he, hrequires⟩ := List.mem_filter.1 he
  obtain ⟨k, calls, hentries, hcalls⟩ := entries_of_classified hdb
  rw [hentries] at he
  obtain ⟨r, hr, rfl⟩ := List.mem_map.1 he
  have hentry := k.entryOf_classified r
  have hcall := List.mem_of_find?_eq_some ((Database.Builder.mem_classes_recordAll calls r).1 hr)
  obtain ⟨file, _, hrecord⟩ := hcalls r hcall
  obtain ⟨rfl, bytes, hread, hfacts⟩ := recordOf_eq_some hrecord
  refine ⟨bytes, r.facts, ?_, hfacts, (hentry.requires_iff.1 (eq_of_beq hrequires)).2.1⟩
  rw [hentry.file]
  exact hread

variable (hmarking : engine.Marking) (v : Revised MarksBytes w.files again.files)
  (hsettled : List.Forall₂ Settled db.entries db'.entries)
  (hdb : classified settings engine w = .ok db) (hdb' : classified settings engine again = .ok db')

include hmarking v hsettled hdb hdb'

/-- The file of a class that is to be rewritten after a run was not rewritten by it. -/
theorem readFile_of_mem_todo_again {e : ClassEntry} (he : e ∈ db'.todo) :
    again.files.readFile e.file.path = w.files.readFile e.file.path := by
  have he₀ := List.mem_of_mem_filter (mem_todo_of_again hsettled he)
  have hfile := isFile_of_mem_foundFiles (sourced_of_classified hdb e he₀).found
  obtain ⟨bytes, facts, hread, hfacts, hunmarked⟩ := unmarked_of_mem_todo hdb' he
  rcases v.readFile hfile with ⟨old, new, hold, hnew, hsame⟩ | ⟨cause, _, hnew⟩
  · rcases hsame with rfl | ⟨facts₀, _, hmarked⟩
    · rw [hold, hnew]
    · obtain rfl := Except.ok.inj (hread.symm.trans hnew)
      rw [hmarking.analyze, hmarked] at hfacts
      obtain rfl := Except.ok.inj hfacts
      cases hunmarked
  · rw [hread] at hnew
    cases hnew

/-- What is on the work list again was not rewritten, and is left alone. -/
theorem Became.calm_again {e : ClassEntry} {outcome : Outcome} {new : List FileTree.Rewrite}
    (h : Became settings engine db w e.item outcome new) (he : e ∈ db'.todo)
    (hfaults : again.faults = w.faults)
    (hput : ∀ r ∈ new, ∀ old, w.files.readFile r.path = .ok old →
      again.files.readFile r.path = .ok r.bytes) :
    outcome.isRewritten = false ∧ Calm settings engine db' again e.item := by
  cases h with
  | excluded hincl => exact ⟨rfl, .excluded hincl⟩
  | never hname => exact ⟨rfl, .never hname⟩
  | @idle entry hentry hrequires =>
      obtain ⟨entry', hentry', hsame⟩ := exists_get?_again hsettled hentry
      refine ⟨rfl, .idle hentry' (Bool.eq_false_iff.2 fun hrequires' => ?_)⟩
      rw [hsame.requires hrequires', hrequires] at hrequires'
      cases hrequires'
  | @tolerated entry before failure hdue hanswer hpoints =>
      obtain ⟨entry', hentry', hsame⟩ := exists_get?_again hsettled hdue.classified
      refine ⟨rfl, ?_⟩
      cases hrequires' : entry'.requiresInstrumentation with
      | false => exact .idle hentry' hrequires'
      | true =>
          obtain rfl := hsame.requires hrequires'
          have hread := readFile_of_mem_todo_again hmarking v hsettled hdb hdb' he
          have hreread : again.reread e.file.path = w.reread e.file.path := by
            rw [Workspace.reread, Workspace.reread, hfaults, hread]
          obtain ⟨w₁, hanswer⟩ := hanswer
          exact .tolerated ⟨hdue.included, hdue.mayInstrument, hentry', hrequires',
            hreread.trans hdue.read⟩
            (fun w' => (hmarking.determined (requestFor settings db e.item entry' before)
              (requestFor settings db' e.item entry' before) w₁ w' rfl rfl rfl).trans hanswer)
            hpoints
  | @rewritten entry before after hdue hanswer =>
      -- the file has a mark now, so that its class is not on the work list
      have hbefore := readFile_of_reread hdue.read
      have hafter := hput _ (List.mem_singleton_self _) before hbefore
      obtain ⟨bytes, facts, hread, hfacts, _⟩ :=
        unmarked_of_mem_todo hdb (mem_todo_of_again hsettled he)
      obtain ⟨bytes', facts', hread', hfacts', hunmarked⟩ := unmarked_of_mem_todo hdb' he
      obtain rfl := Except.ok.inj (hbefore.symm.trans hread)
      obtain rfl := Except.ok.inj (hafter.symm.trans hread')
      obtain ⟨w₁, hanswer⟩ := hanswer
      rw [hmarking.analyze] at hfacts hfacts'
      obtain rfl := Except.ok.inj
        ((hmarking.marks _ _ _ hanswer facts hfacts).symm.trans hfacts')
      cases hunmarked

end Again

/-! ## Two runs -/

section Runs

variable {settings : Settings} {engine : Engine σ} {w again : Workspace σ} {db : Database}

/-- A run of an engine that marks classes rewrites files to marked ones. -/
theorem revised_of_told (hmarking : engine.Marking) {told : List (List FileTree.Rewrite)}
    {t' : FileTree} (hdone : List.Forall₂ (fun d new => Became settings engine db w d.1 d.2 new)
      (history settings engine w).done told)
    (hsep : FileTree.Separate w.files (told.flatten.map FileTree.Rewrite.path))
    (hleaves : Leaves w.files t' told.flatten) : Revised MarksBytes w.files t' := by
  refine hleaves.revised hsep (exists_read_of_became hdone ?_)
  rintro d hd entry before after hdue ⟨w₁, hanswer⟩
  obtain ⟨bytes, facts, hread, hfacts, _⟩ := analyzed_of_mem_done hd
  obtain rfl := Except.ok.inj ((readFile_of_reread hdue.read).symm.trans hread)
  rw [hmarking.analyze] at hfacts
  exact ⟨facts, hfacts, hmarking.marks _ _ _ hanswer facts hfacts⟩

/-- What a second classification finds after a run: on the work list are classes that were on it
before and that the run left alone. -/
structure Resumes (settings : Settings) (engine : Engine σ) (w again : Workspace σ)
    (db db' : Database) : Prop where
  before : classified settings engine w = .ok db
  after : classified settings engine again = .ok db'
  items : (history settings engine w).done.map Prod.fst = db.workList
  todo : ∀ e ∈ db'.todo, e ∈ db.todo
  calm : ∀ d ∈ (history settings engine w).done, ∀ e ∈ db'.todo, d.1 = e.item →
    d.2.isRewritten = false ∧ Calm settings engine db' again e.item

theorem resumes_of_ok {report : RunReport} (hmarking : engine.Marking)
    (ht : w.files.WellFormed) (hplain : PlainSources settings w.files)
    (hnear : ∀ path ∈ consults settings w.files, ¬w.files.TooFar path)
    (hrun : ((runPipeline settings engine).run w).1 = .ok report)
    (hafter : again.files = ((runPipeline settings engine).run w).2.files)
    (hfaults : again.faults = w.faults) :
    ∃ db db', Resumes settings engine w again db db' := by
  obtain ⟨db, hdb, hnone, _⟩ := (runPipeline_eq_ok_iff settings engine w).1 hrun
  obtain ⟨told, hdone, hsep, hleaves, hlocations, hend⟩ :=
    history_became hmarking.keepsFiles settings w hdb
  have hlocations := hlocations (.inl hnone)
  obtain ⟨hprogress, hitems⟩ := hend hnone
  rw [runPipeline_run] at hafter
  rw [← hafter] at hleaves hlocations
  have v := revised_of_told hmarking hdone hsep hleaves
  obtain ⟨db', hdb', hsettled⟩ :=
    classified_again hmarking.analyze v hfaults hlocations ht hplain hnear hdb
  have hput : ∀ r ∈ told.flatten, ∀ old, w.files.readFile r.path = .ok old →
      again.files.readFile r.path = .ok r.bytes := by
    intro r hr old hold
    rw [← List.append_nil (List.map _ _)] at hsep
    rw [hafter]
    exact hprogress.frame.readFile_rewritten hsep.leadToFiles hr hold
  refine ⟨db, db', hdb, hdb', hitems, fun e he => mem_todo_of_again hsettled he, ?calm⟩
  rintro ⟨item, outcome⟩ hd e he rfl
  obtain ⟨new, hnew, hbecame⟩ := exists_of_mem_forall₂ hdone.flip hd
  exact hbecame.calm_again hmarking v hsettled hdb hdb' he hfaults fun r hr =>
    hput r (List.mem_flatten.2 ⟨new, hnew, hr⟩)

namespace Resumes

variable {db' : Database} (h : Resumes settings engine w again db db')

include h

theorem calm_of_mem {item : WorkItem} (hitem : item ∈ db'.workList) :
    Calm settings engine db' again item := by
  obtain ⟨e, he, rfl⟩ := List.mem_map.1 hitem
  have hlisted : e.item ∈ (history settings engine w).done.map Prod.fst := by
    rw [h.items]
    exact List.mem_map_of_mem (h.todo e he)
  obtain ⟨d, hd, hsame⟩ := List.mem_map.1 hlisted
  exact (h.calm d hd e he hsame).2

/-- The second run ends well and does nothing. -/
theorem run_eq_ok (hkeeps : engine.KeepsFiles) :
    ∃ report, ((runPipeline settings engine).run again).1 = .ok report ∧ report.rewritten = 0 ∧
      ((runPipeline settings engine).run again).2.files = again.files := by
  obtain ⟨remarks, hhistory⟩ := history_of_classified settings engine again h.after
  obtain ⟨hnone, hidle, hstill⟩ :=
    treatAll_calm hkeeps (fun _ => h.calm_of_mem) (w := again.say remarks) ⟨rfl, rfl⟩
  rw [← hhistory] at hnone hidle hstill
  refine ⟨_, (runPipeline_eq_ok_iff settings engine again).2 ⟨db', h.after, hnone, rfl⟩, ?_, ?_⟩
  · rw [pushAll_eq]
    simpa [reportOf, RunReport.start, List.countP_eq_zero] using hidle
  · rw [runPipeline_run]
    exact hstill.files

/-- Names are distinct on a work list, so no class that was rewritten shares its name with one that
is on the work list again. -/
theorem name_ne {d : WorkItem × Outcome} (hd : d ∈ (history settings engine w).done)
    (hrewritten : d.2.isRewritten = true) {item : WorkItem} (hitem : item ∈ db'.workList) :
    item.name ≠ d.1.name := by
  intro hname
  obtain ⟨e, he, rfl⟩ := List.mem_map.1 hitem
  have hlisted : d.1 ∈ db.workList := by
    rw [← h.items]
    exact List.mem_map_of_mem hd
  obtain ⟨e₀, he₀, hd₀⟩ := List.mem_map.1 hlisted
  have hnames : e.name = e₀.name := by
    rw [← hd₀] at hname
    exact hname
  obtain rfl := List.inj_on_of_nodup_map (nodup_names_of_classified h.before)
    (List.mem_of_mem_filter (h.todo e he)) (List.mem_of_mem_filter he₀) hnames
  simp [(h.calm d hd e he hd₀.symm).1] at hrewritten

end Resumes

/-- **A second run changes nothing.** After a run that ended well, another one ends well, rewrites no
class and leaves the files as they are; its engine is not asked about the classes that the first
run rewrote. No list of methods, no jar and no ignore file may be a class file itself, and no path
that the run looks at may have too many links to lead to its file. -/
theorem runPipeline_again {report : RunReport} (hmarking : engine.Marking)
    (ht : w.files.WellFormed) (hplain : PlainSources settings w.files)
    (hnear : ∀ path ∈ consults settings w.files, ¬w.files.TooFar path)
    (hrun : ((runPipeline settings engine).run w).1 = .ok report)
    (hafter : again.files = ((runPipeline settings engine).run w).2.files)
    (hfaults : again.faults = w.faults) :
    (∃ report', ((runPipeline settings engine).run again).1 = .ok report' ∧
        report'.rewritten = 0 ∧ ((runPipeline settings engine).run again).2.files = again.files) ∧
      ∀ c ∈ report.classes, c.outcome.isRewritten = true →
        ∀ x ∈ exchanges settings engine again, x.request.className ≠ c.className := by
  obtain ⟨db, db', h⟩ := resumes_of_ok hmarking ht hplain hnear hrun hafter hfaults
  refine ⟨h.run_eq_ok hmarking.keepsFiles, fun c hc hrewritten x hx => ?_⟩
  rw [classes_of_ok settings engine w hrun] at hc
  obtain ⟨d, hd, rfl⟩ := List.mem_map.1 hc
  obtain ⟨item, hitem, hname⟩ := exchanges_asks h.after x hx
  rw [hname]
  exact h.name_ne hd hrewritten hitem

end Runs

/-! ### A build with a class whose rewrite fails -/

/-- An engine that can rewrite one class file only. -/
def Engine.only (before after : Bytes) : Engine Unit where
  rewrite request w :=
    (if request.className = "A" ∧ request.bytes = before then .ok after else .error .noOutput, w)

theorem Engine.only_marking {before after : Bytes}
    (h : ClassFacts.analyze after = (ClassFacts.analyze before).map ClassFacts.marked) :
    (Engine.only before after).Marking where
  analyze := rfl
  keepsFiles := ⟨fun _ _ => rfl, fun _ _ => rfl, fun _ _ => rfl⟩
  determined request request' w w' hname hbytes _ := by simp only [only, hname, hbytes]
  marks request w output hanswer facts hfacts := by
    by_cases hasked : request.className = "A" ∧ request.bytes = before
    · obtain rfl : after = output := by simpa [only, hasked] using hanswer
      rw [h, ← hasked.2, hfacts, Attempt.map_ok]
    · simp [only, hasked] at hanswer

/-- The class `A` rewritten. A line of the file reads `Z.run`. -/
def markedFile : Bytes := (taskClass "A" "\nZ.run\n" true []).encode

theorem analyze_markedFile :
    ClassFacts.analyze markedFile = (ClassFacts.analyze taskFile).map ClassFacts.marked := by
  decide +kernel

/-- A class `C` that calls `Z.run`. -/
def callerFile : Bytes := (taskClass "C" "" false [.invoke .static 15]).encode

/-- A jar with a list of suspendable methods. -/
def listingJar (text : String) : Entry :=
  .file (.archive [⟨MethodLists.suspendablesResource, some (ClassFile.Format.ascii text)⟩])
    Entry.fileMode

def plainBuild : Settings := { buildDirectory := "/build" }

/-- What a run makes of a build if only the class `A` can be rewritten, to the octets `after`. -/
def runOnce (after : Bytes) (t : FileTree) : Except Failure RunReport × Workspace Unit :=
  (runPipeline plainBuild (.only taskFile after)).run (.fresh t)

/-- A build with a class that can be rewritten and a link to its file, a file that is no class file,
a class that cannot be rewritten, and one that is not included. One jar lists a method; an ignore
file keeps another one from the class path, which lists the method that `C` calls. -/
def mixedBuild : FileTree where
  entries := [
    (["build"], .directory),
    (["build", ".ignore"], .file (.bytes (ClassFile.Format.ascii "old.jar\n")) Entry.fileMode),
    (["build", "A.class"], .file (.bytes taskFile) Entry.fileMode),
    (["build", "B.class"], .link "A.class"),
    (["build", "D.class"], .file (.bytes []) Entry.fileMode),
    (["build", "E.class"], .file (.bytes (taskOf "E" false)) Entry.fileMode),
    (["build", "lib.jar"], listingJar "Y.run\n"),
    (["build", "old.jar"], listingJar "Z.run\n"),
    (["build", "sub"], .directory),
    (["build", "sub", "C.class"], .file (.bytes callerFile) Entry.fileMode)]
  host := {
    ignores := fun _ _ rules names _ => names.getLast?.any fun name =>
      some (ClassFile.Format.ascii (name ++ "\n")) ∈ rules }

def mixedSettings : Settings := { buildDirectory := "/build", inclusions := .ofList ["A", "C"] }

/-- The second run leaves the class alone that the first one could not rewrite. -/
theorem runPipeline_again_mixedBuild :
    let engine := Engine.only taskFile markedFile
    let w := Workspace.fresh mixedBuild
    let again := Workspace.fresh ((runPipeline mixedSettings engine).run w).2.files
    ∃ report, ((runPipeline mixedSettings engine).run w).1 = .ok report ∧
      report.workList = ["A", "E", "C"] ∧ report.rewritten = 1 ∧
      (∃ report', ((runPipeline mixedSettings engine).run again).1 = .ok report' ∧
        report'.rewritten = 0 ∧
        ((runPipeline mixedSettings engine).run again).2.files = again.files) ∧
      ∀ c ∈ report.classes, c.outcome.isRewritten = true →
        ∀ x ∈ exchanges mixedSettings engine again, x.request.className ≠ c.className := by
  intro engine w again
  have hrun : ((runPipeline mixedSettings engine).run w).1.toOption.map
      (fun report => (report.workList, report.rewritten)) = some (["A", "E", "C"], 1) := by
    decide +kernel
  obtain ⟨report, hreport, hcounts⟩ := Option.map_eq_some_iff.1 hrun
  obtain ⟨hwork, hrewritten⟩ := Prod.mk.inj hcounts
  have hok := Attempt.toOption_eq_some_iff.1 hreport
  have hnear : ∀ path ∈ consults mixedSettings mixedBuild, ¬mixedBuild.TooFar path := by
    have hresolve : ∀ path ∈ consults mixedSettings mixedBuild,
        mixedBuild.resolve path ≠ .error .tooManyLinks := by decide +kernel
    exact fun path hpath hfar => hresolve path hpath hfar.resolve
  have hwell : w.files.WellFormed := by decide +kernel
  have hplain : PlainSources mixedSettings w.files := by decide +kernel
  exact ⟨report, hok, hwork, hrewritten, runPipeline_again (Engine.only_marking analyze_markedFile)
    hwell hplain hnear hok rfl rfl⟩

/-- A build in which a link to the file of `A` is a list of methods. -/
def listedBuild : FileTree where
  entries := [
    (["build"], .directory),
    (["build", "A.class"], .file (.bytes taskFile) Entry.fileMode),
    (["build", "META-INF"], .directory),
    (["build", "META-INF", "suspendables"], .link "../A.class"),
    (["build", "sub"], .directory),
    (["build", "sub", "C.class"], .file (.bytes callerFile) Entry.fileMode)]

/-- A build in which `/build/Z.class` comes to lead to the file of `A`, and so the class path finds
it for `Z`. -/
def distantCaller : FileTree := distantBuild [
  (["build", "sub", "task"], .directory),
  (["build", "sub", "task", "C.class"], .file (.bytes callerFile) Entry.fileMode)]

section Zipped

open ClassFile.Format (ascii)

/-- The octets of a number, least significant first. -/
def leastFirst : (width : Nat) → Nat → Bytes
  | 0, _ => []
  | width + 1, n => UInt8.ofNat n :: leastFirst width (n / 0x100)

/-- Numbers by their widths in a record of an archive. -/
def zipFields (fields : List (Nat × Nat)) : Bytes := fields.flatMap fun f => leastFirst f.1 f.2

/-- An archive of one member that is stored as it is, with the checksum of its data. -/
def storedArchive (name data : Bytes) (checksum : Nat) : Bytes :=
  let about := zipFields [(2, 10), (2, 0), (2, 0), (2, 0), (2, 0x21), (4, checksum),
    (4, data.length), (4, data.length), (2, name.length), (2, 0)]
  let record := zipFields [(4, 0x04034B50)] ++ about ++ name ++ data
  let directory := zipFields [(4, 0x02014B50), (2, 10)] ++ about ++
    zipFields [(2, 0), (2, 0), (2, 0), (4, 0), (4, 0)] ++ name
  record ++ directory ++ zipFields [(4, 0x06054B50), (2, 0), (2, 0), (2, 1), (2, 1),
    (4, directory.length), (4, record.length), (2, 0)]

/-- The class `A` rewritten, with an attribute that holds an archive. As the attribute is the last
thing in the file, the file is an archive as well; a list in it names `Z.run`. -/
def zippedFile : Bytes :=
  let marked := taskClass "A" "Archive" true []
  let archive := storedArchive (ascii MethodLists.suspendablesResource) (ascii "Z.run\n") 0xEA8176CC
  ClassFile.Format.Class.encode
    { marked with attributes := marked.attributes ++ [⟨11, .unknown archive⟩] }

theorem analyze_zippedFile :
    ClassFacts.analyze zippedFile = (ClassFacts.analyze taskFile).map ClassFacts.marked := by
  decide +kernel

/-- A build in which a link to the file of `A` looks like a jar. -/
def jarredBuild : FileTree where
  entries := [
    (["build"], .directory),
    (["build", "A.class"], .file (.bytes taskFile) Entry.fileMode),
    (["build", "lib.jar"], .link "A.class"),
    (["build", "sub"], .directory),
    (["build", "sub", "C.class"], .file (.bytes callerFile) Entry.fileMode)]
  host := { unzip := fun data =>
    if data = zippedFile then some [⟨MethodLists.suspendablesResource, some (ascii "Z.run\n")⟩]
    else none }

end Zipped

/-- How many classes a run rewrites, and then another one. -/
def runTwice (after : Bytes) (t : FileTree) : Except Failure Nat × Except Failure Nat :=
  ((runOnce after t).1.map (·.rewritten),
    (runOnce after (runOnce after t).2.files).1.map (·.rewritten))

/-- A second run may fail if a list of methods or a jar is a class file, and also if a path has too
many links: the call that could not suspend in the first run may suspend in the second one. -/
theorem runPipeline_again_fails :
    (Engine.only taskFile markedFile).Marking ∧ (Engine.only taskFile zippedFile).Marking ∧
      listedBuild.WellFormed ∧
      runTwice markedFile listedBuild = (.ok 1, .error (.rewrite "C" .noOutput)) ∧
      jarredBuild.WellFormed ∧
      runTwice zippedFile jarredBuild = (.ok 1, .error (.rewrite "C" .noOutput)) ∧
      distantCaller.WellFormed ∧
      runTwice markedFile distantCaller = (.ok 1, .error (.rewrite "C" .noOutput)) :=
  ⟨Engine.only_marking analyze_markedFile, Engine.only_marking analyze_zippedFile,
    by decide +kernel, by decide +kernel, by decide +kernel, by decide +kernel,
    by decide +kernel, by decide +kernel⟩

end FiberWeave
